import VQuasar.Segments.Reuse

/-!
# The tunnel ports of a host

What the ports of the overlay bridges and of the IPsec bridge point at.  A port is made if it is not
there and its interface is set (`addTunnel`), in one transaction: the options that the command names
take their new values and the others stay.  No call takes a port away.

`overlay_mesh_iff`: the tunnels of an overlay bridge, whose ports are numbered, are those of the last
list of peers if and only if no port with a higher number was left by a longer list.  `anchors_iff`: the
same for the IPsec bridge, whose ports are named after the last two octets of the address.
-/

namespace VQuasar.Dataplane.Tunnels

open Scripts Segments List Option

/-! ## Ports and their options -/

structure Port where
  bridge : String
  remoteIp : Option String
  remoteName : Option String
deriving DecidableEq, Repr

structure Switch where
  bridges : String → Bool
  ports : String → Option Port

structure Tunnel where
  port : String
  remoteIp : String
  remoteName : Option String
deriving DecidableEq, Repr

/-- `stage` stands for `stage_credentials`. -/
inductive TunnelCommand
  | addBr (br : String)
  | addTunnel (br : String) (t : Tunnel)
  | stage
  | credentials
deriving DecidableEq, Repr

def setTunnel (br : String) (s : Switch) (t : Tunnel) : Switch :=
  { s with
    ports := fun name =>
      if name = t.port then
        some ⟨br, some t.remoteIp, t.remoteName <|> (s.ports name).bind Port.remoteName⟩
      else s.ports name }

/-- A bridge that is not there, a port that is on another one. -/
def TunnelCommand.refused (s : Switch) : TunnelCommand → Bool
  | .addTunnel br t => !s.bridges br || (s.ports t.port).any (·.bridge != br)
  | _ => false

def TunnelCommand.effect : TunnelCommand → Switch → Switch
  | .addBr br, s => { s with bridges := fun x => x == br || s.bridges x }
  | .addTunnel br t, s => setTunnel br s t
  | .stage, s | .credentials, s => s

section

variable (env : TunnelCommand → Outcome)

def runTunnel (c : TunnelCommand) : Script Switch Unit :=
  command (fun s => !c.refused s && env c == .ok)
    fun s => if c.refused s || !(env c).effective then s else c.effect s

/-- `ensure_overlay` of peers in order -/
def ensureMesh (vni : Nat) (peers : List String) : Script Switch String := do
  let br := overlayBridge vni
  runTunnel env (.addBr br)
  peers.zipIdx.forM fun (peer, i) => runTunnel env (.addTunnel br ⟨tunnelPort vni i, peer, none⟩)
  pure br

/-- `ensure_overlay`, with the options of the ports -/
def ensureOverlay (vni : Nat) (peers : List String) : Script Switch String :=
  ensureMesh env vni (peers.mergeSort fun a b => a ≤ b).dedup

def anchorBridge : String := "br-vxipsec"

structure Peer where
  underlayIp : String
  certCn : String
deriving DecidableEq, Repr

def anchorPort (underlayIp : String) : String :=
  let tail := ((underlayIp.toList.splitOn '.').reverse.take 2).reverse
  "ipsec-" ++ String.ofList (['-'].intercalate tail)

def Peer.pinned (p : Peer) : Option String := if p.certCn = "" then none else some p.certCn

/-- `anchor_port_args` -/
def anchorTunnel (p : Peer) : Tunnel := ⟨anchorPort p.underlayIp, p.underlayIp, p.pinned⟩

/-- `ipsec::apply` -/
def applyIpsec (peers : List Peer) : Script Switch Unit := do
  runTunnel env (.addBr anchorBridge)
  runTunnel env .stage
  runTunnel env .credentials
  peers.forM fun p => runTunnel env (.addTunnel anchorBridge (anchorTunnel p))

end

example : anchorPort "172.16.56.8" = "ipsec-56-8" := by decide

/-- Port `name` of the bridge is a tunnel to `ip`. -/
def Carries (s : Switch) (br name ip : String) : Prop :=
  ∃ p, s.ports name = some p ∧ p.bridge = br ∧ p.remoteIp = some ip

/-! ## What a list of tunnels leaves -/

def setTunnels (br : String) (s : Switch) (ts : List Tunnel) : Switch := ts.foldl (setTunnel br) s

variable {env : TunnelCommand → Outcome} {br name : String} {s : Switch} {vni : Nat}
  {c : TunnelCommand} {a : Unit} {P : Switch → Prop} {peers : List String} {n : Nat}

theorem setTunnels_other {ts : List Tunnel} (h : name ∉ ts.map Tunnel.port) :
    (setTunnels br s ts).ports name = s.ports name := by
  induction ts generalizing s with
  | nil => rfl
  | cons t ts ih =>
    rw [map_cons, mem_cons, not_or] at h
    exact (ih h.2).trans (if_neg h.1)

theorem setTunnels_mem {ts : List Tunnel} (hnd : (ts.map Tunnel.port).Nodup) {t : Tunnel}
    (ht : t ∈ ts) : (setTunnels br s ts).ports t.port =
      some ⟨br, some t.remoteIp, t.remoteName <|> (s.ports t.port).bind Port.remoteName⟩ := by
  induction ts generalizing s with
  | nil => cases ht
  | cons u ts ih =>
    rw [map_cons, nodup_cons] at hnd
    rcases mem_cons.mp ht with rfl | ht
    · exact (setTunnels_other hnd.1).trans (if_pos rfl)
    · have hne : t.port ≠ u.port := fun h => hnd.1 (h ▸ mem_map_of_mem ht)
      refine (ih hnd.2 ht).trans ?_
      simp only [setTunnel, if_neg hne]

theorem carries_setTunnels {ts : List Tunnel} (hnd : (ts.map Tunnel.port).Nodup) {ip : String} :
    Carries (setTunnels br s ts) br name ip ↔ (∃ t ∈ ts, t.port = name ∧ t.remoteIp = ip) ∨
        (name ∉ ts.map Tunnel.port ∧ Carries s br name ip) := by
  by_cases hname : name ∈ ts.map Tunnel.port
  · obtain ⟨t, ht, rfl⟩ := mem_map.mp hname
    constructor
    · rintro ⟨p, hp, -, hip⟩
      rw [setTunnels_mem hnd ht] at hp
      cases hp
      exact .inl ⟨t, ht, rfl, some.inj hip⟩
    · rintro (⟨u, hu, hport, rfl⟩ | ⟨hno, -⟩)
      · exact ⟨_, hport ▸ setTunnels_mem hnd hu, rfl, rfl⟩
      · exact absurd hname hno
  · constructor
    · rintro ⟨p, hp, hrest⟩
      exact .inr ⟨hname, p, (setTunnels_other hname) ▸ hp, hrest⟩
    · rintro (⟨u, hu, rfl, -⟩ | ⟨-, p, hp, hrest⟩)
      · exact absurd (mem_map_of_mem hu) hname
      · exact ⟨p, (setTunnels_other hname).trans hp, hrest⟩

theorem runTunnel_state (h : (runTunnel env c s).result = some a) :
    (runTunnel env c s).state = c.effect s := by
  have hok : (!c.refused s && env c == .ok) := by
    by_contra hno
    exact absurd ((if_neg hno).symm.trans h) (by simp)
  rw [Bool.and_eq_true, Bool.not_eq_true', beq_iff_eq] at hok
  refine if_neg ?_
  rw [hok.1, hok.2]
  decide

theorem forM_tunnels {β : Type} (f : β → Tunnel) (xs : List β) {a : PUnit}
    (h : (xs.forM (fun x => runTunnel env (.addTunnel br (f x))) s).result = some a) :
    (xs.forM (fun x => runTunnel env (.addTunnel br (f x))) s).state = setTunnels br s (xs.map f) := by
  induction xs generalizing s with
  | nil => rfl
  | cons x xs ih =>
    obtain ⟨u, hx, hrest, hstate⟩ := bind_eq_some h
    refine hstate.trans ?_
    rw [ih hrest, runTunnel_state hx]
    rfl

theorem keeps_runTunnel (h : ∀ s, P s → P (c.effect s)) : Keeps P (runTunnel env c) := by
  apply keeps_command
  intro s hs
  split
  · exact hs
  · exact h s hs

/-! ## The overlay mesh -/

theorem tunnelPort_inj {i j : Nat} (h : tunnelPort vni i = tunnelPort vni j) : i = j := by
  have hl := congrArg String.toList h
  simp only [tunnelPort, String.toList_append, append_cancel_left_eq,
    Nat.toString_eq_ofList_toDigits, String.toList_ofList] at hl
  rw [← Nat.ofDigitChars_ten_toDigits (n := i), hl, Nat.ofDigitChars_ten_toDigits]

/-- The tunnels of `ensure_overlay`, in the order of the commands. -/
def overlayTunnels (vni : Nat) (peers : List String) : List Tunnel :=
  ((peers.mergeSort fun a b => a ≤ b).dedup).zipIdx.map fun q => ⟨tunnelPort vni q.2, q.1, none⟩

theorem overlayTunnels_ports (vni : Nat) (peers : List String) :
    (overlayTunnels vni peers).map Tunnel.port =
      (List.range peers.dedup.length).map (tunnelPort vni) := by
  have hlen := ((List.mergeSort_perm peers fun a b => decide (a ≤ b)).dedup).length_eq
  rw [← hlen, List.range_eq_range', ← List.zipIdx_map_snd, overlayTunnels, List.map_map, List.map_map]
  rfl

theorem overlayTunnels_ips (vni : Nat) (peers : List String) :
    ((overlayTunnels vni peers).map Tunnel.remoteIp).Perm peers.dedup := by
  have hips : (overlayTunnels vni peers).map Tunnel.remoteIp =
      (peers.mergeSort fun a b => a ≤ b).dedup := by
    rw [overlayTunnels, List.map_map]
    exact List.zipIdx_map_fst 0 _
  rw [hips]
  exact (mergeSort_perm peers fun a b => decide (a ≤ b)).dedup

theorem overlayTunnels_nodup (vni : Nat) (peers : List String) :
    ((overlayTunnels vni peers).map Tunnel.port).Nodup := by
  rw [overlayTunnels_ports]
  exact nodup_range.map fun _ _ => tunnelPort_inj

theorem mem_overlayTunnels_ports : name ∈ (overlayTunnels vni peers).map
    Tunnel.port ↔ ∃ i < peers.dedup.length, name = tunnelPort vni i := by
  rw [overlayTunnels_ports]
  simp only [List.mem_map, List.mem_range, eq_comm]

structure OverlayCall where
  env : TunnelCommand → Outcome
  vni : Nat
  peers : List String

def OverlayCall.run (c : OverlayCall) : Script Switch String := ensureOverlay c.env c.vni c.peers

def runCalls {γ α : Type} (run : γ → Script Switch α) (calls : List γ) (s : Switch) : Switch :=
  calls.foldl (fun s c => (run c s).state) s

theorem runCalls_keeps {γ α : Type} {run : γ → Script Switch α} {calls : List γ}
    (h : ∀ c ∈ calls, Keeps P (run c)) (hs : P s) : P (runCalls run calls s) := by
  induction calls generalizing s with
  | nil => exact hs
  | cons c calls ih =>
    refine ih (fun d hd => h d (mem_cons_of_mem _ hd)) ?_
    exact (h c (mem_cons_self ..) s hs).2

/-- The tunnels of the bridge are those of `peers`, with one port for each. -/
def Mesh (s : Switch) (vni : Nat) (peers : List String) : Prop :=
  (∀ ip, (∃ name, Carries s (overlayBridge vni) name ip) ↔ ip ∈ peers) ∧
    ∀ ip ∈ peers, ∃! name, Carries s (overlayBridge vni) name ip

theorem ensureOverlay_state {a : String} (h : (ensureOverlay env vni peers
    s).result = some a) : ∃ t : Switch, t.ports = s.ports ∧ (ensureOverlay env vni peers s).state =
    setTunnels (overlayBridge vni) t (overlayTunnels vni peers) := by
  obtain ⟨u, hbr, hrest, hstate⟩ := bind_eq_some h
  obtain ⟨w, hloop, -, hstate'⟩ := bind_eq_some hrest
  have hports := congrArg Switch.ports (runTunnel_state hbr)
  have hset := forM_tunnels (fun q : String × Nat => ⟨tunnelPort vni q.2, q.1, none⟩) _ hloop
  exact ⟨_, hports, hstate.trans (hstate'.trans hset)⟩

def Below (vni n : Nat) (s : Switch) : Prop :=
  ∀ name ip, Carries s (overlayBridge vni) name ip → ∃ i < n, name = tunnelPort vni i

theorem mesh_iff_below {a : String} (hnd : peers.Nodup) (h : (ensureOverlay
    env vni peers s).result = some a) : Mesh (ensureOverlay env vni peers s).state vni peers ↔ Below
    vni peers.length s := by
  obtain ⟨t, hports, hstate⟩ := ensureOverlay_state h
  have hcarries : ∀ name ip, Carries t (overlayBridge vni) name ip ↔
      Carries s (overlayBridge vni) name ip := by
    intro name ip
    simp only [Carries, hports]
  have hlist := fun name ip => @carries_setTunnels (overlayBridge vni) name t _
    (overlayTunnels_nodup vni peers) ip
  have hips := overlayTunnels_ips vni peers
  rw [hnd.dedup] at hips
  have hmem : ∀ ip, ip ∈ peers ↔ ∃ u ∈ overlayTunnels vni peers, u.remoteIp = ip := by
    intro ip
    rw [← hips.mem_iff, List.mem_map]
  rw [hstate]
  simp only [hcarries] at hlist
  constructor
  · rintro ⟨hset, honce⟩ name ip hc
    rw [← hnd.dedup, ← mem_overlayTunnels_ports]
    -- a port that is not among those of the list stays, beside the one of the list
    by_contra hname
    have hold := (hlist _ _).mpr (.inr ⟨hname, hc⟩)
    have hip := (hset ip).mp ⟨name, hold⟩
    obtain ⟨u, hu, rfl⟩ := (hmem ip).mp hip
    have hnew := (hlist _ _).mpr (.inl ⟨u, hu, rfl, rfl⟩)
    have heq := (honce _ hip).unique hold hnew
    exact hname (heq ▸ mem_map_of_mem hu)
  · intro hbelow
    have honly : ∀ name ip, Carries (setTunnels (overlayBridge vni) t (overlayTunnels vni peers))
        (overlayBridge vni) name ip ↔
          ∃ u ∈ overlayTunnels vni peers, u.port = name ∧ u.remoteIp = ip := by
      intro name ip
      refine (hlist name ip).trans (or_iff_left ?_)
      rintro ⟨hname, hc⟩
      rw [mem_overlayTunnels_ports, hnd.dedup] at hname
      exact hname (hbelow name ip hc)
    refine ⟨fun ip => ?_, fun ip hip => ?_⟩
    · rw [hmem]
      simp only [honly]
      exact ⟨fun ⟨_, u, hu, _, hip⟩ => ⟨u, hu, hip⟩, fun ⟨u, hu, hip⟩ => ⟨_, u, hu, rfl, hip⟩⟩
    · obtain ⟨u, hu, hip⟩ := (hmem ip).mp hip
      refine ⟨u.port, (honly _ _).mpr ⟨u, hu, rfl, hip⟩, ?_⟩
      intro name hc
      obtain ⟨v, hv, rfl, hvip⟩ := (honly _ _).mp hc
      rw [inj_on_of_nodup_map (hips.nodup_iff.mpr hnd) hv hu (hvip.trans hip.symm)]

theorem below_setTunnel {t : Tunnel} (ht : br = overlayBridge vni → ∃ i < n,
    t.port = tunnelPort vni i) (hs : Below vni n s) : Below vni n (setTunnel br s t) := by
  rintro name ip ⟨p, hp, hbr, hip⟩
  by_cases hname : name = t.port
  · obtain rfl := some.inj ((if_pos hname).symm.trans hp)
    obtain ⟨i, hi, hport⟩ := ht hbr
    exact ⟨i, hi, hname.trans hport⟩
  · exact hs name ip ⟨p, (if_neg hname).symm.trans hp, hbr, hip⟩

theorem keeps_below {c : OverlayCall} (hc : c.vni = vni → c.peers.dedup.length ≤ n) :
    Keeps (Below vni n) c.run := by
  refine keeps_bind (keeps_runTunnel fun s hs => hs) fun _ => ?_
  refine keeps_bind (keeps_forM _ fun q hq => keeps_runTunnel fun s hs => ?_) fun _ => keeps_pure _
  refine below_setTunnel (fun hbr => ?_) hs
  obtain rfl := overlayBridge_inj hbr
  obtain ⟨i, hi, hport⟩ := mem_overlayTunnels_ports.mp
    (mem_map_of_mem (f := Tunnel.port) (mem_map_of_mem hq))
  exact ⟨i, Nat.lt_of_lt_of_le hi (hc rfl), hport⟩

/-- From a switch without tunnels, after any calls: one that gets through leaves the mesh of its peers
just in case no tunnel of its bridge had a number of its own; so if no earlier list was longer. -/
theorem overlay_mesh_iff {s : Switch} (hnew : ∀ name p, s.ports name = some p → p.remoteIp = none)
    (calls : List OverlayCall) (c : OverlayCall) (hnd : c.peers.Nodup)
    (hok : (c.run (runCalls OverlayCall.run calls s)).result.isSome) :
    (Mesh (c.run (runCalls OverlayCall.run calls s)).state c.vni c.peers ↔
      Below c.vni c.peers.length (runCalls OverlayCall.run calls s)) ∧
    ((∀ d ∈ calls, d.vni = c.vni → d.peers.dedup.length ≤ c.peers.length) →
      Mesh (c.run (runCalls OverlayCall.run calls s)).state c.vni c.peers) := by
  obtain ⟨a, ha⟩ := isSome_iff_exists.mp hok
  have hiff := mesh_iff_below hnd ha
  refine ⟨hiff, fun hshort => hiff.mpr (runCalls_keeps (fun d hd => keeps_below (hshort d hd)) ?_)⟩
  rintro name ip ⟨p, hp, -, hip⟩
  simp [hnew name p hp] at hip

/-! A bridge with tunnels to two hosts, one of which is gone from the next list. -/

def noPorts : Switch := ⟨fun _ => true, fun _ => none⟩

def both : OverlayCall := ⟨fun _ => .ok, 7, ["10.0.0.2", "10.0.0.3"]⟩

def fewer : OverlayCall := ⟨fun _ => .ok, 7, ["10.0.0.2"]⟩

theorem run_both : both.run = ensureMesh both.env 7 both.peers := by
  rw [OverlayCall.run, ensureOverlay, mergeSort_of_pairwise (by decide), List.Nodup.dedup (by decide)]
  rfl

theorem run_fewer : fewer.run = ensureMesh fewer.env 7 fewer.peers := by
  rw [OverlayCall.run, ensureOverlay, mergeSort_of_pairwise (by decide), List.Nodup.dedup (by decide)]
  rfl

theorem mesh_both : Mesh (both.run (runCalls OverlayCall.run [fewer] noPorts)).state 7
    ["10.0.0.2", "10.0.0.3"] := by
  refine (overlay_mesh_iff (fun _ _ h => by cases h) [fewer] both (by decide) ?_).2 (by decide)
  rw [runCalls, foldl_cons, run_both, run_fewer]
  decide

theorem fewer_stale : (fewer.run (runCalls OverlayCall.run [both] noPorts)).result.isSome ∧
    ¬ Mesh (fewer.run (runCalls OverlayCall.run [both] noPorts)).state 7 ["10.0.0.2"] := by
  rw [runCalls, foldl_cons, run_both, run_fewer]
  refine ⟨by decide, fun h => ?_⟩
  have hstale : "10.0.0.3" ∈ ["10.0.0.2"] := (h.1 "10.0.0.3").mp ⟨"vx7_1", ⟨_, rfl, rfl, rfl⟩⟩
  exact absurd hstale (by decide)

/-! ## The anchors -/

structure IpsecCall where
  env : TunnelCommand → Outcome
  peers : List Peer

def IpsecCall.run (c : IpsecCall) : Script Switch Unit := applyIpsec c.env c.peers

/-- One tunnel for each peer, with its name if it has one, and no other. -/
def Covers (s : Switch) (peers : List Peer) : Prop :=
  (∀ p ∈ peers, (∃! name, Carries s anchorBridge name p.underlayIp) ∧
    ∀ name q, s.ports name = some q → q.bridge = anchorBridge → q.remoteIp = some p.underlayIp →
      q.remoteName = p.pinned) ∧
  ∀ name ip, Carries s anchorBridge name ip → ip ∈ peers.map Peer.underlayIp

/-- Ports of the IPsec bridge are named after the addresses they have. -/
def Named (s : Switch) : Prop :=
  ∀ name ip, Carries s anchorBridge name ip → name = anchorPort ip

theorem named_setTunnel (p : Peer) (hs : Named s) :
    Named (setTunnel anchorBridge s (anchorTunnel p)) := by
  rintro name ip ⟨q, hq, hbr, hip⟩
  by_cases hname : name = anchorPort p.underlayIp
  · obtain rfl := some.inj ((if_pos hname).symm.trans hq)
    cases hip
    exact hname
  · exact hs name ip ⟨q, (if_neg hname).symm.trans hq, hbr, hip⟩

theorem keeps_named (c : IpsecCall) : Keeps Named c.run := by
  refine keeps_bind (keeps_runTunnel fun s hs => hs) fun _ => ?_
  refine keeps_bind (keeps_runTunnel fun s hs => hs) fun _ => ?_
  refine keeps_bind (keeps_runTunnel fun s hs => hs) fun _ => ?_
  exact keeps_forM _ fun p _ => keeps_runTunnel fun s hs => named_setTunnel p hs

theorem applyIpsec_state {peers : List Peer}
    (h : (applyIpsec env peers s).result = some a) : ∃ t : Switch, t.ports = s.ports ∧
      (applyIpsec env peers s).state = setTunnels anchorBridge t (peers.map anchorTunnel) := by
  obtain ⟨_, hbr, h, hstate₁⟩ := bind_eq_some h
  obtain ⟨_, hstage, h, hstate₂⟩ := bind_eq_some h
  obtain ⟨_, hcred, h, hstate₃⟩ := bind_eq_some h
  have hports : (runTunnel env .credentials (runTunnel env .stage
      (runTunnel env (.addBr anchorBridge) s).state).state).state.ports = s.ports := by
    rw [runTunnel_state hcred, runTunnel_state hstage, runTunnel_state hbr]
    rfl
  exact ⟨_, hports, hstate₁.trans (hstate₂.trans (hstate₃.trans (forM_tunnels _ _ h)))⟩

theorem anchorTunnel_ports (peers : List Peer) : (peers.map anchorTunnel).map Tunnel.port =
    peers.map fun p => anchorPort p.underlayIp := by
  rw [List.map_map]
  rfl

/-- No two peers have the same last two octets, no other name is in use, and the port of a peer without
an identity has none either. -/
def Ready (s : Switch) (peers : List Peer) : Prop :=
  (peers.map fun p => anchorPort p.underlayIp).Nodup ∧
  (∀ name ip, Carries s anchorBridge name ip → name ∈ peers.map fun p => anchorPort p.underlayIp) ∧
  ∀ p ∈ peers, p.certCn = "" → (s.ports (anchorPort p.underlayIp)).bind Port.remoteName = none

theorem covers_of_ready {peers : List Peer} (hnamed : Named (setTunnels anchorBridge s
    (peers.map anchorTunnel))) (h : Ready s peers) :
    Covers (setTunnels anchorBridge s (peers.map anchorTunnel)) peers := by
  obtain ⟨hnd, hstale, hname⟩ := h
  rw [← anchorTunnel_ports] at hnd
  refine ⟨fun p hp => ?_, fun name ip hc => ?_⟩
  · have hset := @setTunnels_mem anchorBridge s _ hnd _ (mem_map_of_mem hp)
    refine ⟨⟨_, ⟨_, hset, rfl, rfl⟩, fun name hc => hnamed _ _ hc⟩, fun name q hq hbr hip => ?_⟩
    obtain rfl := hnamed name _ ⟨q, hq, hbr, hip⟩
    obtain rfl := mem_unique hset hq
    show (p.pinned <|> _) = p.pinned
    by_cases hcn : p.certCn = ""
    · rw [Peer.pinned, if_pos hcn]
      exact hname p hp hcn
    · rw [Peer.pinned, if_neg hcn]
      rfl
  · rcases (carries_setTunnels hnd).mp hc with ⟨t, ht, -, rfl⟩ | ⟨hno, hc⟩
    · obtain ⟨p, hp, rfl⟩ := mem_map.mp ht
      exact mem_map_of_mem hp
    · exact absurd (anchorTunnel_ports peers ▸ hstale name ip hc) hno

theorem ready_of_covers {peers : List Peer} (hdistinct : (peers.map Peer.underlayIp).Nodup)
    (hs : Named s) (hnamed : Named (setTunnels anchorBridge s (peers.map anchorTunnel)))
    (h : Covers (setTunnels anchorBridge s (peers.map anchorTunnel)) peers) : Ready s peers := by
  obtain ⟨heach, honly⟩ := h
  have hnd : (peers.map fun p => anchorPort p.underlayIp).Nodup := by
    refine (nodup_map_iff_inj_on hdistinct.of_map).mpr fun p hp q hq heq => ?_
    -- the one port of that name has both addresses
    obtain ⟨n, hn, -⟩ := (heach p hp).1
    obtain ⟨m, hm, -⟩ := (heach q hq).1
    have hnm : n = m := (hnamed n _ hn).trans (heq.trans (hnamed m _ hm).symm)
    obtain ⟨P, hP, -, hPip⟩ := hn
    obtain ⟨Q, hQ, -, hQip⟩ := hm
    obtain rfl := some.inj (hP.symm.trans (hnm ▸ hQ))
    exact inj_on_of_nodup_map hdistinct hp hq (mem_unique hPip hQip)
  rw [← anchorTunnel_ports] at hnd
  refine ⟨anchorTunnel_ports peers ▸ hnd, fun name ip hc => ?_, fun p hp hcn => ?_⟩
  · rw [← anchorTunnel_ports]
    by_contra hno
    have hip := honly name ip ((carries_setTunnels hnd).mpr (.inr ⟨hno, hc⟩))
    obtain ⟨p, hp, rfl⟩ := mem_map.mp hip
    rw [anchorTunnel_ports] at hno
    exact hno (mem_map.mpr ⟨p, hp, (hs name _ hc).symm⟩)
  · have hset := @setTunnels_mem anchorBridge s _ hnd _ (mem_map_of_mem hp)
    have hpin := (heach p hp).2 _ _ hset rfl rfl
    have hnone : (anchorTunnel p).remoteName = none := if_pos hcn
    rwa [Peer.pinned, if_pos hcn, hnone] at hpin

/-- From a switch whose IPsec bridge has no tunnel, after any calls: one that gets through covers
exactly its peers just in case the bridge was `Ready` for them. -/
theorem anchors_iff {s : Switch} (hnew : ∀ name ip, ¬ Carries s anchorBridge name ip)
    (calls : List IpsecCall) (c : IpsecCall) (hdistinct : (c.peers.map Peer.underlayIp).Nodup)
    (hok : (c.run (runCalls IpsecCall.run calls s)).result.isSome) :
    Covers (c.run (runCalls IpsecCall.run calls s)).state c.peers ↔
      Ready (runCalls IpsecCall.run calls s) c.peers := by
  obtain ⟨a, ha⟩ := isSome_iff_exists.mp hok
  obtain ⟨t, hports, hstate⟩ := applyIpsec_state ha
  have hs : Named (runCalls IpsecCall.run calls s) :=
    runCalls_keeps (fun c _ => keeps_named c) fun name ip hc => absurd hc (hnew name ip)
  have hafter := (keeps_named c _ hs).2
  have ht : Named t := by
    simpa only [Named, Carries, hports] using hs
  have hready : Ready t c.peers ↔ Ready (runCalls IpsecCall.run calls s) c.peers := by
    simp only [Ready, Carries, hports]
  rw [← hready]
  rw [IpsecCall.run, hstate] at hafter ⊢
  exact ⟨ready_of_covers hdistinct ht hafter, covers_of_ready hafter⟩

def known : IpsecCall := ⟨fun _ => .ok, [⟨"10.0.0.2", "agent-host2"⟩]⟩

def unknown : IpsecCall := ⟨fun _ => .ok, [⟨"10.0.0.2", ""⟩]⟩

theorem covers_known : Covers (known.run (runCalls IpsecCall.run [unknown] noPorts)).state
    [⟨"10.0.0.2", "agent-host2"⟩] := by
  refine (anchors_iff ?_ [unknown] known (by decide) (by decide)).mpr ⟨by decide, ?_, by decide⟩
  · rintro name ip ⟨_, hp, -⟩
    cases hp
  · rintro name ip ⟨p, hp, -⟩
    by_contra hne
    have hport : name ≠ anchorPort "10.0.0.2" := by simpa [known] using hne
    cases (if_neg hport).symm.trans hp

/-- The peer's identity is no longer known, and the port goes on to ask for it. -/
theorem unknown_pinned : (unknown.run (runCalls IpsecCall.run [known] noPorts)).result.isSome ∧
      ¬ Covers (unknown.run (runCalls IpsecCall.run [known] noPorts)).state [⟨"10.0.0.2", ""⟩] := by
  refine ⟨by decide, fun h => ?_⟩
  have hname := (h.1 _ (mem_singleton_self _)).2 "ipsec-0-2" _ rfl rfl rfl
  exact absurd hname (by decide)

end VQuasar.Dataplane.Tunnels
