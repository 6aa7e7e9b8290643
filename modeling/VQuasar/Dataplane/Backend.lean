import Mathlib.Data.List.Dedup
import VQuasar.Dataplane.Flows
import VQuasar.Lib.Scripts

/-!
# The network backend of the agent

The Open vSwitch of a host, the command lines with which the agent changes it, and the three calls of
the backend: `prepare` puts a new TAP on the bridge of its network, `rehome` finds the bridge of the TAP
of a VM that runs, moves it if its network has another one, and puts its flows in place anew, `release`
takes it off.

How each command goes is an argument (`Outcome`), and what Open vSwitch itself refuses is in
`Command.refused`.  The commands of `ip` touch neither ports nor flows; those whose failure is ignored
and that no call depends on are left out.
-/

namespace VQuasar.Dataplane

open Tenancy FlowTable Scripts List Option

/-! ## Open vSwitch -/

/-- The ports with the bridges they are on, the flows of each bridge there is, and the VLAN tags. -/
structure Ovs where
  ports : List (String × String)
  bridges : String → Option (List OvsFlow)
  tags : String → Nat

def newBridge : List OvsFlow := [⟨0, 0, 0, [], .normal⟩]

/-- `port-to-br` -/
def Ovs.portToBr (s : Ovs) (port : String) : Option String :=
  (s.ports.find? fun q => q.1 == port).map Prod.snd

/-- The command lines of the network path.  `ipsec` stands for `hostfw::apply` and `ipsec::apply`,
which work on a bridge of their own. -/
inductive Command
  | portToBr (tap : String)
  | ipsec
  | addBr (br : String)
  | addTunnel (br port peer : String)
  | delFlows (br : String) (cookie table : Nat)
  | delPort (br port : String)
  | addPort (br port : String)
  | listPorts (br : String)
  | delBr (br : String)
  | setTag (port : String) (tag : Nat)
  | clearTag (port : String)
  | addFlows (br : String) (flows : List OvsFlow)
  | linkDel (tap : String)
  | tuntapAdd (tap : String)
  | linkUp (tap : String)
deriving DecidableEq, Repr

/-- How a command goes.  One that fails has no effect, but of a batch of flows the first `n` may be
in; `lost` takes effect and is reported as failed. -/
inductive Outcome
  | ok
  | failed (n : Nat)
  | lost
deriving DecidableEq, Repr

def Outcome.effective : Outcome → Bool
  | .failed _ => false
  | _ => true

/-- A flow takes the place of one with the same table, priority and match. -/
def installFlow (flows : List OvsFlow) (f : OvsFlow) : List OvsFlow :=
  flows.filter (fun g => !(g.table == f.table && g.priority == f.priority && g.fields == f.fields))
    ++ [f]

def installFlows (flows new : List OvsFlow) : List OvsFlow := new.foldl installFlow flows

/-- What Open vSwitch refuses: a port that is on another bridge, a bridge that is not there. -/
def Command.refused (s : Ovs) : Command → Bool
  | .portToBr tap => (s.portToBr tap).isNone
  | .addPort br port => (s.bridges br).isNone || (s.portToBr port).any (· != br)
  | .delPort br port => (s.bridges br).isNone || (s.portToBr port).any (· != br)
  | .delFlows br _ _ | .addFlows br _ | .listPorts br => (s.bridges br).isNone
  | .setTag port _ | .clearTag port => (s.portToBr port).isNone
  | _ => false

def Ovs.setFlows (s : Ovs) (br : String) (flows : Option (List OvsFlow)) : Ovs :=
  { s with bridges := fun x => if x = br then flows else s.bridges x }

/-- Put a port on a bridge, unless it is on one (`--may-exist`). -/
def Ovs.attach (s : Ovs) (br port : String) : Ovs :=
  if (s.portToBr port).isSome then s else { s with ports := s.ports ++ [(port, br)] }

/-- The effect of a command.  The tag is part of the port and goes with it. -/
def Command.effect : Command → Ovs → Ovs
  | .addBr br, s => if (s.bridges br).isSome then s else s.setFlows br (some newBridge)
  | .addTunnel br port _, s => s.attach br port
  | .addPort br port, s => s.attach br port
  | .delPort _ port, s =>
    { s with
      ports := s.ports.filter fun q => q.1 != port
      tags := fun x => if x = port then 0 else s.tags x }
  | .delBr br, s =>
    { s.setFlows br none with
      ports := s.ports.filter fun q => q.2 != br
      tags := fun x => if s.portToBr x = some br then 0 else s.tags x }
  | .delFlows br cookie table, s =>
    s.setFlows br ((s.bridges br).map fun flows =>
      flows.filter fun f => !(f.cookie == cookie && f.table == table))
  | .addFlows br new, s => s.setFlows br ((s.bridges br).map fun flows => installFlows flows new)
  | .setTag port tag, s => { s with tags := fun x => if x = port then tag else s.tags x }
  | .clearTag port, s => { s with tags := fun x => if x = port then 0 else s.tags x }
  | .portToBr _, s | .ipsec, s | .listPorts _, s | .linkDel _, s | .tuntapAdd _, s | .linkUp _, s => s

/-- Whether a command may be carried out in part. -/
def Command.batch : Command → Bool
  | .addFlows _ _ => true
  | _ => false

open Command

def Command.leaves (o : Outcome) (c : Command) (s : Ovs) : Ovs :=
  if c.refused s then s
  else
    match o, c with
    | .failed n, .addFlows br new => (addFlows br (new.take n)).effect s
    | .failed _, _ => s
    | _, _ => c.effect s

/-! ## The backend -/

/-- `NicBinding`; `overlay_peer_identities` go to `ipsec` only. -/
structure NicBinding where
  mac : MacAddr
  vlan : Nat
  vni : Nat
  overlayPeers : List String
  filtered : Bool
  ingressRules : List SecRule
  egressRules : List SecRule
  egressDefaultDeny : Bool
  encryptUnderlay : Bool
deriving DecidableEq, Repr

/-- `OvsNetworkBackend` -/
structure Backend where
  bridge : String
  ipsecCredentials : Bool
  portSecurity : Bool

structure PreparedNic where
  tap : String
  mac : MacAddr
deriving DecidableEq, Repr

section

variable (env : Command → Outcome)

def run (c : Command) : Script Ovs Unit :=
  command (fun s => !c.refused s && env c == .ok) (c.leaves (env c))

def runStdout {α : Type} (c : Command) (answer : Ovs → Option α) : Script Ovs α :=
  query fun s => if c.refused s || env c != .ok then none else answer s

variable (net : Backend) (vm : String) (index : Nat) (tap : String) (b : NicBinding)

def tapName : String := "tap" ++ vm ++ toString index

def overlayBridge (vni : Nat) : String := "vxbr" ++ toString vni

def clear (br tap : String) : Script Ovs Unit := do
  let _ ← attempt (run env (.delFlows br (cookieFor tap) 0))
  let _ ← attempt (run env (.delFlows br (cookieFor tap) resultTable))

def apply (br tap : String) (mac : MacAddr) (policy : Policy) : Script Ovs Unit := do
  clear env br tap
  run env (.addFlows br (buildFlows tap mac policy))

def applyPortSecurity (br tap : String) (mac : MacAddr) : Script Ovs Unit := do
  clear env br tap
  run env (.addFlows br (buildPortSecurityFlows tap mac))

def applyFirewall (br tap : String) (b : NicBinding) : Script Ovs Unit :=
  match b.filtered, net.portSecurity with
  | true, _ => apply env br tap b.mac ⟨b.ingressRules, b.egressRules, b.egressDefaultDeny⟩
  | false, true => applyPortSecurity env br tap b.mac
  | false, false => clear env br tap

def applyUnderlayIpsec : Script Ovs Unit :=
  if b.encryptUnderlay && net.ipsecCredentials then run env .ipsec else pure ()

/-- The port of tunnel `i` of an overlay bridge. -/
def tunnelPort (vni i : Nat) : String := "vx" ++ toString vni ++ "_" ++ toString i

/-- `ensure_overlay`; `sort` and `dedup` of the peers. -/
def ensureOverlay (vni : Nat) (peers : List String) : Script Ovs String := do
  let br := overlayBridge vni
  run env (.addBr br)
  let peers := (peers.mergeSort (fun a b => a ≤ b)).dedup
  peers.zipIdx.forM fun (peer, i) =>
    run env (.addTunnel br (tunnelPort vni i) peer)
  pure br

def desiredBridge : Script Ovs String :=
  if b.vni ≠ 0 then do
    applyUnderlayIpsec env net b
    ensureOverlay env b.vni b.overlayPeers
  else pure net.bridge

def setVlan (vlan : Nat) : Script Ovs Unit :=
  if vlan ≠ 0 then run env (.setTag tap vlan)
  else do
    let _ ← attempt (run env (.clearTag tap))

/-- Only a NIC on the integration bridge has a tag. -/
def setPlacement : Script Ovs Unit :=
  if b.vni = 0 then setVlan env tap b.vlan else pure ()

def gcOverlayIfEmpty (br : String) : Script Ovs Unit :=
  if br.startsWith "vxbr" then do
    match ← attempt (runStdout env (.listPorts br) fun s =>
        some ((s.ports.filter fun q => q.2 == br).map Prod.fst)) with
    | some ports =>
      if ports.any (fun p => p.startsWith "tap") then pure ()
      else
        let _ ← attempt (run env (.delBr br))
    | none => pure ()
  else pure ()

def moveTap (tap current desired : String) : Script Ovs Unit := do
  let _ ← attempt (clear env current tap)
  let _ ← attempt (run env (.delPort current tap))
  run env (.addPort desired tap)
  gcOverlayIfEmpty env current

/-- `rehome` of a TAP that is on the bridge `current`. -/
def rehomeFrom (tap current : String) (b : NicBinding) : Script Ovs Unit := do
  let desired ← desiredBridge env net b
  (if current ≠ desired then moveTap env tap current desired else pure ())
  setPlacement env tap b
  applyFirewall env net desired tap b

/-- `rehome` of NIC `index`; `vm` is the short id of the VM. -/
def rehome : Script Ovs Unit := do
  let tap := tapName vm index
  match ← attempt (runStdout env (.portToBr tap) fun s => s.portToBr tap) with
  | none => pure ()
  | some current => rehomeFrom env net tap current b

/-- `prepare` of NIC `index` -/
def prepare : Script Ovs PreparedNic := do
  let tap := tapName vm index
  let _ ← attempt (run env (.linkDel tap))
  run env (.tuntapAdd tap)
  run env (.linkUp tap)
  let br ← desiredBridge env net b
  run env (.addPort br tap)
  setPlacement env tap b
  applyFirewall env net br tap b
  pure ⟨tap, b.mac⟩

/-- `release`, once the bridge of the TAP is known or not found -/
def releaseFrom : Option String → Script Ovs Unit
  | some br => do
    let _ ← attempt (clear env br tap)
    let _ ← attempt (run env (.delPort br tap))
    gcOverlayIfEmpty env br
  | none => do
    let _ ← attempt (run env (.delPort net.bridge tap))

def release : Script Ovs Unit := do
  let tap := tapName vm index
  let br ← attempt (runStdout env (.portToBr tap) fun s => s.portToBr tap)
  releaseFrom env net tap br
  let _ ← attempt (run env (.linkDel tap))

end

/-! ## Ports -/

theorem tapName_ne_tunnelPort (vm : String) (index vni i : Nat) :
    tapName vm index ≠ tunnelPort vni i := by
  intro h
  have hl := congrArg String.toList h
  simp [tapName, tunnelPort, String.toList_append] at hl

theorem find?_filter_of_keep {α : Type} {l : List α} {p q : α → Bool} {a : α}
    (h : l.find? q = some a) (hp : p a) : (l.filter p).find? q = some a := by
  induction l with
  | nil => cases h
  | cons x l ih =>
    rw [List.find?_cons] at h
    cases hq : q x with
    | true =>
      rw [hq] at h
      cases h
      rw [filter_cons_of_pos hp, List.find?_cons, hq]
    | false =>
      rw [hq] at h
      by_cases hpx : p x
      · rw [filter_cons_of_pos hpx, List.find?_cons, hq]
        exact ih h
      · rw [filter_cons_of_neg hpx]
        exact ih h

section

variable {s : Ovs} {br br' port tap : String}

theorem portToBr_delPort : ((delPort br tap).effect s).portToBr tap = none := by
  show ((s.ports.filter fun q => q.1 != tap).find? fun q => q.1 == tap).map Prod.snd = none
  rw [map_eq_none_iff, List.find?_eq_none]
  intro q hq
  have := (mem_filter.mp hq).2
  simpa using this

theorem portToBr_attach (h : s.portToBr tap = none) : (s.attach br tap).portToBr tap = some br := by
  have hnone : s.ports.find? (fun q => q.1 == tap) = none := by
    simpa [Ovs.portToBr] using h
  unfold Ovs.attach
  rw [h, if_neg (by simp)]
  show ((s.ports ++ [(tap, br)]).find? fun q => q.1 == tap).map Prod.snd = some br
  rw [List.find?_append, hnone]
  simp

theorem portToBr_attach_other (hne : tap ≠ port) :
    (s.attach br port).portToBr tap = s.portToBr tap := by
  unfold Ovs.attach
  split
  · rfl
  · show ((s.ports ++ [(port, br)]).find? fun q => q.1 == tap).map Prod.snd = _
    rw [List.find?_append]
    simp [Ovs.portToBr, Ne.symm hne]

theorem portToBr_delBr (h : s.portToBr tap = some br) (hne : br ≠ br') :
    ((delBr br').effect s).portToBr tap = some br := by
  obtain ⟨q, hq, rfl⟩ := map_eq_some_iff.mp h
  show ((s.ports.filter fun q => q.2 != br').find? fun q => q.1 == tap).map Prod.snd = _
  rw [find?_filter_of_keep hq (by simpa using hne)]
  rfl

theorem bridges_attach : (s.attach br port).bridges = s.bridges := by
  unfold Ovs.attach
  split <;> rfl

end

/-! ## Commands -/

section

variable {env : Command → Outcome} {o : Outcome} {P : Ovs → Prop} {s : Ovs} {c : Command}
  {br tap : String} {mac : MacAddr}

theorem always_run : Always P (run env c) s ↔ P (c.leaves (env c) s) := always_command _ _

theorem run_state : (run env c s).state = c.leaves (env c) s := rfl

theorem leaves_of_effective (hr : c.refused s = false) (ho : o.effective) :
    c.leaves o s = c.effect s := by
  unfold leaves
  rw [if_neg (by simp [hr])]
  cases o with
  | failed n => cases ho
  | ok | lost => rfl

theorem leaves_of_failed (hc : c.batch = false) (ho : o.effective = false) : c.leaves o s = s := by
  cases o with
  | failed n =>
    unfold leaves
    split
    · rfl
    · cases c with
      | addFlows br new => cases hc
      | _ => rfl
  | ok | lost => cases ho

theorem leaves_single (hc : c.batch = false) (o : Outcome) (s : Ovs) :
    c.leaves o s = s ∨ c.leaves o s = c.effect s := by
  cases hr : c.refused s with
  | true =>
    unfold leaves
    exact .inl (if_pos hr)
  | false =>
    cases ho : o.effective with
    | true => exact .inr (leaves_of_effective hr ho)
    | false => exact .inl (leaves_of_failed hc ho)

theorem leaves_addFlows (o : Outcome) (br : String) (new : List OvsFlow) (s : Ovs) :
    (addFlows br new).leaves o s = s ∨
      ∃ n, (addFlows br new).leaves o s = (addFlows br (new.take n)).effect s := by
  unfold leaves
  split
  · exact .inl rfl
  · cases o with
    | failed n => exact .inr ⟨n, rfl⟩
    | ok | lost => exact .inr ⟨new.length, by rw [take_length]⟩

theorem keeps_run (hc : c.batch = false) (h : ∀ s, P s → P (c.effect s)) : Keeps P (run env c) := by
  refine keeps_command ?_
  intro s hs
  rcases leaves_single hc (env c) s with hl | hl
  · rwa [hl]
  · rw [hl]
    exact h s hs

theorem keeps_run_addFlows {new : List OvsFlow}
    (h : ∀ s part, (∀ f ∈ part, f ∈ new) → P s → P ((addFlows br part).effect s)) :
    Keeps P (run env (.addFlows br new)) := by
  refine keeps_command ?_
  intro s hs
  rcases leaves_addFlows (env (.addFlows br new)) br new s with hl | ⟨n, hl⟩
  · rwa [hl]
  · rw [hl]
    exact h s _ (fun f hf => mem_of_mem_take hf) hs

theorem run_result (hc : c.refused s = false) :
    (run env c s).result = if env c == .ok then some () else none := by
  show (if !c.refused s && env c == .ok then some () else none) = _
  rw [hc]
  rfl

end

/-! ## What the parts of a call can do -/

/-- The policy of a binding; `none` if it is not filtered. -/
def NicBinding.policy (b : NicBinding) : Option Policy :=
  if b.filtered then some ⟨b.ingressRules, b.egressRules, b.egressDefaultDeny⟩ else none

def nicFlows (net : Backend) (tap : String) (b : NicBinding) : List OvsFlow :=
  firewallFlows net.portSecurity tap b.mac b.policy

section

variable {env : Command → Outcome} {P : Ovs → Prop} {net : Backend} {br tap : String}
  {b : NicBinding}

theorem keeps_clear
    (hdel : ∀ s table, P s → P ((delFlows br (cookieFor tap) table).effect s)) :
    Keeps P (clear env br tap) := by
  refine keeps_bind (keeps_attempt (keeps_run rfl fun s => hdel s 0)) fun _ => ?_
  exact keeps_bind (keeps_attempt (keeps_run rfl fun s => hdel s resultTable)) fun _ => keeps_pure _

theorem keeps_applyFirewall
    (hdel : ∀ s table, P s → P ((delFlows br (cookieFor tap) table).effect s))
    (hadd : ∀ s new, (∀ f ∈ new, f ∈ nicFlows net tap b) → P s →
      P ((addFlows br new).effect s)) : Keeps P (applyFirewall env net br tap b) := by
  have hflows : nicFlows net tap b = if b.filtered then
      buildFlows tap b.mac ⟨b.ingressRules, b.egressRules, b.egressDefaultDeny⟩
      else if net.portSecurity then buildPortSecurityFlows tap b.mac else [] := by
    unfold nicFlows NicBinding.policy
    split <;> rfl
  unfold applyFirewall
  split
  · next hf =>
    rw [hflows, hf] at hadd
    exact keeps_bind (keeps_clear hdel) fun _ => keeps_run_addFlows hadd
  · next hf hp =>
    rw [hflows, hf, hp] at hadd
    exact keeps_bind (keeps_clear hdel) fun _ => keeps_run_addFlows hadd
  · exact keeps_clear hdel

theorem keeps_desiredBridge_of (hbr : ∀ s, P s → P ((addBr (overlayBridge b.vni)).effect s))
    (htunnel : ∀ s i, P s → P (s.attach (overlayBridge b.vni) (tunnelPort b.vni i))) :
    Keeps P (desiredBridge env net b) := by
  unfold desiredBridge
  split
  · refine keeps_bind ?_ fun _ => ?_
    · unfold applyUnderlayIpsec
      split
      · exact keeps_run rfl fun _ h => h
      · exact keeps_pure _
    · unfold ensureOverlay
      refine keeps_bind (keeps_run rfl hbr) fun _ => ?_
      exact keeps_bind (keeps_forM _ fun x _ => keeps_run rfl fun s => htunnel s x.2)
        fun _ => keeps_pure _
  · exact keeps_pure _

theorem keeps_gcOverlay
    (h : ∀ s, br.startsWith "vxbr" → (∀ q ∈ s.ports, q.2 = br → q.1.startsWith "tap" = false) →
      P s → P ((delBr br).effect s)) : Keeps P (gcOverlayIfEmpty env br) := by
  unfold gcOverlayIfEmpty
  split
  · next hbr =>
    refine keeps_attempt_query_bind fun found s hfound hs => ?_
    cases found with
    | none => exact ⟨always_pure _, hs⟩
    | some ports =>
    have hports : (s.ports.filter fun q => q.2 == br).map Prod.fst = ports :=
      some.inj (ite_none_left_eq_some.mp hfound).2
    cases hany : ports.any fun p => p.startsWith "tap" with
    | true =>
      simp only [hany]
      exact ⟨always_pure _, hs⟩
    | false =>
      simp only [hany]
      have hempty : ∀ q ∈ s.ports, q.2 = br → q.1.startsWith "tap" = false := by
        intro q hq hqbr
        have hin : q.1 ∈ ports := by
          rw [← hports]
          exact mem_map_of_mem (mem_filter.mpr ⟨hq, by simpa using hqbr⟩)
        simpa using any_eq_false.mp hany q.1 hin
      have hdel : P ((delBr br).leaves (env (.delBr br)) s) := by
        rcases leaves_single (c := .delBr br) rfl (env (.delBr br)) s with hl | hl
        · rwa [hl]
        · rw [hl]
          exact h s hbr hempty hs
      exact ⟨(always_attempt_bind _ _).mpr ⟨always_run.mpr hdel, always_pure _⟩, hdel⟩
  · exact keeps_pure _

end

end VQuasar.Dataplane
