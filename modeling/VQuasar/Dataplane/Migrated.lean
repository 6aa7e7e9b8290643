import VQuasar.Dataplane.Placement

/-!
# NICs of a VM that has been migrated

On the host that a VM is migrated to, `prepare_receive` launches a VMM without TAPs and
`finalize_receive` makes the VM a managed one.  `ensure` then takes its NICs for running ones: it calls
`rehome` for each, and `prepare` only for those beyond the NICs of the record.

The calls for one NIC leave the others alone (`Spared`), as far as Open vSwitch can tell their flows
apart.  So a successful `ensure` wires every NIC exactly if the TAP of each NIC of the record was on
some bridge already (`migrated_nics_wired_iff`): nothing else puts it on one.
-/

namespace VQuasar.Dataplane

open Tenancy FlowTable Scripts Runs List Option Command

variable {bs : List NicBinding} {net : Backend} {vm : String} {s : Target}

/-! ## The network part of `ensure` -/

section

variable (env : Command → Outcome) (net : Backend) (vm : String)

def rehomeAll : Nat → List NicBinding → Script Ovs Unit
  | _, [] => pure ()
  | i, b :: bs => do
    rehome env net vm i b
    rehomeAll (i + 1) bs

def prepareAll : Nat → List NicBinding → Script Ovs Unit
  | _, [] => pure ()
  | i, b :: bs => do
    let _ ← prepare env net vm i b
    prepareAll (i + 1) bs

/-- `ensure` of a VM that runs, and `reconfigure` for the NICs beyond the `old` ones; `none` is a VM
that is not managed yet. -/
def ensureNics (old : Option Nat) (bs : List NicBinding) : Script Ovs Unit :=
  match old with
  | none => prepareAll env net vm 0 bs
  | some n => do
    rehomeAll env net vm 0 bs
    prepareAll env net vm n (bs.drop n)

/-- `release` for the first `n` NICs; a failure is only logged. -/
def releaseAll : Nat → Script Ovs Unit
  | 0 => pure ()
  | n + 1 => do
    releaseAll n
    let _ ← attempt (release env net vm n)
    pure ()

end

/-! ## A host -/

/-- A host as far as the NICs of one VM go: its switch, and the number of NICs in the record on disk, in
that of the managed VM and in that of the receiver that is prepared for it. -/
structure Target where
  ovs : Ovs
  record : Option Nat
  managed : Option Nat
  pending : Option Nat

/-- How `ensure` goes on after the NICs that are there. -/
inductive Rest
  | launchFails
  | createFails
  | bootFails
  /-- the VM has never run, so its VMM and its TAPs are discarded -/
  | neverRan (env : Command → Outcome)
  | done

inductive TargetEvent
  /-- a call of the backend for any VM; a request that is cut short is the calls that it made -/
  | nic (e : NicEvent)
  | storeRecord (nics : Nat)
  | ensure (env : Command → Outcome) (bs : List NicBinding) (rest : Rest)
  /-- `ensure` of a VM that is to be off: its TAPs stay -/
  | powerOff (nics : Nat)
  | teardown (env : Command → Outcome) (terminated : Bool)
  /-- the agent starts again, and finds the VMM alive or not -/
  | restart (alive : Bool)
  | prepareReceive (nics : Nat)
  | finalizeReceive
  | dropReceiver

section

variable (net : Backend) (vm : String)

/-- The end of `ensure`, once the VM is managed. -/
def finishEnsure (bs : List NicBinding) (s : Target) : Rest → Target
  | .done => { s with managed := some bs.length }
  | .neverRan env => { s with ovs := (releaseAll env net vm bs.length s.ovs).state, managed := none }
  | _ => s

def ensure (env : Command → Outcome) (bs : List NicBinding) (rest : Rest) (s : Target) : Target :=
  match s.managed, rest with
  | none, .launchFails =>
    { s with ovs := (prepareAll env net vm 0 bs s.ovs).state, record := some bs.length }
  | some _, .createFails =>
    { s with ovs := (rehomeAll env net vm 0 bs s.ovs).state, record := some bs.length }
  | old, rest =>
    let nics := ensureNics env net vm old bs s.ovs
    let s := { s with ovs := nics.state, record := some bs.length }
    match nics.result with
    | none => s
    | some _ => finishEnsure net vm bs { s with managed := some (old.getD bs.length) } rest

def teardown (env : Command → Outcome) (terminated : Bool) (s : Target) : Target :=
  match s.managed, terminated with
  | none, _ => { s with pending := none }
  | some _, false => { s with managed := none, pending := none }
  | some n, true => ⟨(releaseAll env net vm n s.ovs).state, none, none, none⟩

def finalizeReceive (s : Target) : Option Target :=
  match s.managed, s.pending with
  | some _, _ => some s
  | none, some nics => some { s with managed := some nics, pending := none }
  | none, none => none

def targetStep (s : Target) : TargetEvent → Option Target
  | .nic e => some { s with ovs := e.perform net s.ovs }
  | .storeRecord nics => some { s with record := some nics }
  | .ensure env bs rest => some (ensure net vm env bs rest s)
  | .powerOff nics => some { s with record := some nics, managed := none }
  | .teardown env terminated => some (teardown net vm env terminated s)
  | .restart true => some { s with managed := s.record, pending := none }
  | .restart false => some { s with record := none, managed := none, pending := none }
  | .prepareReceive nics =>
    match s.pending with
    | some _ => some s
    | none => some { s with record := some nics, pending := some nics }
  | .finalizeReceive => finalizeReceive s
  | .dropReceiver => some { s with pending := none }

end

structure Unvisited (net : Backend) (vm : String) (s : Target) : Prop where
  record : s.record = none
  managed : s.managed = none
  pending : s.pending = none
  untouched : ∀ i, Untouched net (tapName vm i) s.ovs

/-- Open vSwitch can tell the flows of two NICs apart. -/
def Told (net : Backend) (tap tap' : String) (b b' : NicBinding) : Prop :=
  cookieFor tap ≠ cookieFor tap' ∧
    (desiredName net b = desiredName net b' → b.mac ≠ b'.mac ∧ zoneFor tap ≠ zoneFor tap')

def AllTold (net : Backend) (vm : String) (bs : List NicBinding) : Prop :=
  ∀ i j b b', i ≠ j → bs[i]? = some b → bs[j]? = some b' →
    Told net (tapName vm i) (tapName vm j) b b'

/-! ## What the calls for another NIC leave alone -/

/-- `P` is kept by every command for the NIC. -/
structure Spared (net : Backend) (tap : String) (b : NicBinding) (P : Ovs → Prop) : Prop where
  addBr : ∀ s br, P s → P ((addBr br).effect s)
  tunnel : ∀ s br vni i, P s → P (s.attach br (tunnelPort vni i))
  addPort : ∀ s br, P s → P (s.attach br tap)
  delPort : ∀ s br, P s → P ((delPort br tap).effect s)
  delBr : ∀ s br, (∀ q ∈ s.ports, q.2 = br → q.1.startsWith "tap" = false) → P s →
    P ((delBr br).effect s)
  tags : ∀ s tags, (∀ x, x ≠ tap → tags x = s.tags x) → P s → P { s with tags := tags }
  delFlows : ∀ s br table, P s → P ((delFlows br (cookieFor tap) table).effect s)
  addFlows : ∀ s new, (∀ f ∈ new, f ∈ nicFlows net tap b) → P s →
    P ((addFlows (desiredName net b) new).effect s)

section

variable {env : Command → Outcome} {net : Backend} {vm tap tap' : String} {index i : Nat}
  {b b' : NicBinding} {P : Ovs → Prop} {s t : Ovs}

namespace Spared

section

variable (h : Spared net tap b P)
include h

theorem desiredBridge : Keeps P (desiredBridge env net b) :=
  keeps_desiredBridge_of (fun s => h.addBr s _) fun s => h.tunnel s _ _

theorem setPlacement : Keeps P (setPlacement env tap b) := by
  have htags : ∀ (s : Ovs) (v : Nat), P s →
      P { s with tags := fun x => if x = tap then v else s.tags x } :=
    fun s v => h.tags s _ fun x hx => if_neg hx
  unfold Dataplane.setPlacement setVlan
  split
  · split
    · exact keeps_run rfl fun s => htags s _
    · exact keeps_bind (keeps_attempt (keeps_run rfl fun s => htags s 0)) fun _ => keeps_pure _
  · exact keeps_pure _

theorem applyFirewall : Keeps P (applyFirewall env net (desiredName net b) tap b) :=
  keeps_applyFirewall (fun s => h.delFlows s _) h.addFlows

theorem moveTap (current desired : String) : Keeps P (moveTap env tap current desired) := by
  refine keeps_bind (keeps_attempt (keeps_clear fun s => h.delFlows s current)) fun _ => ?_
  refine keeps_bind (keeps_attempt (keeps_run rfl fun s => h.delPort s current)) fun _ => ?_
  refine keeps_bind (keeps_run rfl fun s => h.addPort s desired) fun _ => ?_
  exact keeps_gcOverlay fun s _ => h.delBr s current

end

theorem rehome (h : Spared net (tapName vm index) b P) (hs : P s) :
    P (rehome env net vm index b s).state := by
  unfold Dataplane.rehome
  rw [attempt_bind_state]
  cases (runStdout env (.portToBr (tapName vm index)) (fun s => s.portToBr (tapName vm index))
      s).result with
  | none => exact hs
  | some current =>
    have hleads : Leads P P (rehomeFrom env net (tapName vm index) current b) fun _ => P := by
      unfold rehomeFrom
      refine leads_bind (leads_desiredBridge h.desiredBridge) fun name => leads_fact fun hname => ?_
      subst hname
      refine leads_bind (Keeps.leads ?_) fun _ => leads_bind h.setPlacement.leads fun _ =>
        h.applyFirewall.leads
      split
      · exact h.moveTap current _
      · exact keeps_pure _
    exact (hleads s hs).1

theorem prepare (h : Spared net (tapName vm index) b P) (hs : P s) :
    P (prepare env net vm index b s).state := by
  have hsame : ∀ c : Command, c.batch = false → (∀ t, c.effect t = t) → Keeps P (run env c) :=
    fun c hc heff => keeps_run hc fun t ht => (heff t).symm ▸ ht
  have hleads : Leads P P (Dataplane.prepare env net vm index b) fun _ => P := by
    unfold Dataplane.prepare
    refine leads_bind (keeps_attempt (hsame _ rfl fun _ => rfl)).leads fun _ => ?_
    refine leads_bind (hsame _ rfl fun _ => rfl).leads fun _ => ?_
    refine leads_bind (hsame _ rfl fun _ => rfl).leads fun _ => ?_
    refine leads_bind (leads_desiredBridge h.desiredBridge) fun name => leads_fact fun hname => ?_
    subst hname
    refine leads_bind (keeps_run rfl fun t => h.addPort t _).leads fun _ => ?_
    refine leads_bind h.setPlacement.leads fun _ => ?_
    refine leads_bind h.applyFirewall.leads fun _ => ?_
    exact leads_pure (fun _ ht => ht) fun _ ht => ht
  exact (hleads s hs).1

end Spared

theorem tapName_inj {j : Nat} (h : tapName vm i = tapName vm j) : i = j := by
  have hlist := congrArg String.toList h
  simp only [tapName, String.toList_append] at hlist
  have hdigits := append_cancel_left hlist
  rw [Nat.toString_eq_ofList_toDigits, Nat.toString_eq_ofList_toDigits, String.toList_ofList,
    String.toList_ofList] at hdigits
  rw [← Nat.ofDigitChars_ten_toDigits (n := i), hdigits, Nat.ofDigitChars_ten_toDigits]

theorem tapName_startsWith (vm : String) (i : Nat) : (tapName vm i).startsWith "tap" := by
  simp [tapName, String.append_assoc]

/-- The TAP has the ports it has in `s`. -/
def SamePorts (tap : String) (s t : Ovs) : Prop := ∀ br, (tap, br) ∈ t.ports ↔ (tap, br) ∈ s.ports

theorem samePorts_attach {port : String} (hne : port ≠ tap) (br : String) (t : Ovs) :
    SamePorts tap t (t.attach br port) := by
  intro x
  rw [mem_attach_iff]
  refine or_iff_left ?_
  rintro ⟨-, heq⟩
  exact hne (Prod.mk.inj heq).1.symm

theorem samePorts_delPort (hne : tap' ≠ tap) (br : String) (t : Ovs) :
    SamePorts tap t ((delPort br tap').effect t) := by
  intro x
  simp [effect, Ne.symm hne]

theorem samePorts_delBr {br : String} (htap : tap.startsWith "tap")
    (hempty : ∀ q ∈ t.ports, q.2 = br → q.1.startsWith "tap" = false) :
    SamePorts tap t ((delBr br).effect t) := by
  intro x
  show (tap, x) ∈ t.ports.filter (fun q => q.2 != br) ↔ _
  rw [mem_filter]
  refine and_iff_left_of_imp fun hx => ?_
  have hxbr : x ≠ br := by
    intro heq
    have := hempty _ hx heq
    simp [htap] at this
  simpa using hxbr

theorem SamePorts.trans {u : Ovs} (h : SamePorts tap s t) (h' : SamePorts tap t u) :
    SamePorts tap s u := fun br => (h' br).trans (h br)

theorem spared_samePorts (hne : tap' ≠ tapName vm i) (b' : NicBinding) (s : Ovs) :
    Spared net tap' b' (SamePorts (tapName vm i) s) where
  addBr t br h x := by
    rw [ports_addBr]
    exact h x
  tunnel t br vni j h := h.trans (samePorts_attach (Ne.symm (tapName_ne_tunnelPort _ _ _ _)) br t)
  addPort t br h := h.trans (samePorts_attach hne br t)
  delPort t br h := h.trans (samePorts_delPort hne br t)
  delBr t br hempty h := h.trans (samePorts_delBr (tapName_startsWith vm i) hempty)
  tags _ _ _ h := h
  delFlows _ _ _ h := h
  addFlows _ _ _ h := h

theorem samePorts_rehome {k : Nat} (hik : index ≠ k) (b : NicBinding) (s : Ovs) :
    SamePorts (tapName vm k) s (rehome env net vm index b s).state :=
  (spared_samePorts (fun heq => hik (tapName_inj heq)) b s).rehome fun _ => Iff.rfl

theorem Wired.frame (h : Wired net tap b s) (hports : SamePorts tap s t)
    (htag : t.tags tap = s.tags tap) (hflows : ∀ flows, s.bridges (desiredName net b) = some flows →
      ∃ flows', t.bridges (desiredName net b) = some flows' ∧
        ∀ f, f.cookie = cookieFor tap → (f ∈ flows' ↔ f ∈ flows)) : Wired net tap b t := by
  obtain ⟨flows, hbr, hown⟩ := h.flows
  obtain ⟨flows', hbr', hsame⟩ := hflows flows hbr
  refine ⟨fun br => (hports br).trans (h.port br), htag.trans h.tag, flows', hbr', fun f => ?_⟩
  rw [← hown f]
  exact and_congr_left fun hc => hsame f hc

theorem other_installFlows {c : Nat} (new : List OvsFlow) :
    ∀ flows : List OvsFlow, (∀ g ∈ new, g.cookie ≠ c ∧ ∀ f ∈ flows, f.cookie = c →
        ¬ (f.table = g.table ∧ f.priority = g.priority ∧ f.fields = g.fields)) →
      ∀ f, f.cookie = c → (f ∈ installFlows flows new ↔ f ∈ flows) := by
  induction new with
  | nil => exact fun _ _ _ _ => Iff.rfl
  | cons g new ih =>
    intro flows h f hc
    obtain ⟨hg, hkey⟩ := h g (mem_cons_self ..)
    have hstep : ∀ f, f.cookie = c → (f ∈ installFlow flows g ↔ f ∈ flows) := by
      intro f hc
      rw [mem_installFlow_iff]
      constructor
      · rintro (⟨hf, -⟩ | rfl)
        · exact hf
        · exact absurd hc hg
      · exact fun hf => .inl ⟨hf, hkey f hf hc⟩
    refine (ih (installFlow flows g) ?_ f hc).trans (hstep f hc)
    intro g' hg'
    obtain ⟨hcookie, hkey'⟩ := h g' (mem_cons_of_mem _ hg')
    exact ⟨hcookie, fun f hf hc => hkey' f ((hstep f hc).mp hf) hc⟩

theorem FlowOfNic.told {f g : OvsFlow} {mac mac' : MacAddr} (hf : FlowOfNic tap mac f)
    (hg : FlowOfNic tap' mac' g) (htap : tap' ≠ tap) (hmac : mac' ≠ mac)
    (hzone : zoneFor tap' ≠ zoneFor tap) : f.fields ≠ g.fields := by
  intro heq
  have hf' := hf.head
  have hg' := hg.head
  rw [heq] at hf'
  rcases hf' with h | h | h <;> rcases hg' with h' | h' | h' <;> rw [h] at h' <;> simp_all

theorem spared_wired (htap : tap' ≠ tapName vm i) (htold : Told net tap' (tapName vm i) b' b) :
    Spared net tap' b' (Wired net (tapName vm i) b) where
  addBr t br h := by
    refine h.frame (fun x => by rw [ports_addBr]) (by rw [tags_addBr]) fun flows hflows => ?_
    refine ⟨flows, ?_, fun _ _ => Iff.rfl⟩
    simp only [effect]
    split
    · exact hflows
    · next hnew =>
      have hne : desiredName net b ≠ br := by
        intro heq
        rw [← heq, hflows] at hnew
        exact hnew rfl
      exact (if_neg hne).trans hflows
  tunnel t br vni j h := by
    refine h.frame (samePorts_attach (Ne.symm (tapName_ne_tunnelPort _ _ _ _)) br t) (by rw [tags_attach])
      fun flows hflows => ⟨flows, ?_, fun _ _ => Iff.rfl⟩
    rwa [bridges_attach]
  addPort t br h := by
    refine h.frame (samePorts_attach htap br t) (by rw [tags_attach])
      fun flows hflows => ⟨flows, ?_, fun _ _ => Iff.rfl⟩
    rwa [bridges_attach]
  delPort t br h :=
    h.frame (samePorts_delPort htap br t) (if_neg (Ne.symm htap))
      fun flows hflows => ⟨flows, hflows, fun _ _ => Iff.rfl⟩
  delBr t br hempty h := by
    have hon : (tapName vm i, desiredName net b) ∈ t.ports := (h.port _).mpr rfl
    have hne : desiredName net b ≠ br := by
      intro heq
      have := hempty _ hon heq
      simp [tapName_startsWith] at this
    refine h.frame (samePorts_delBr (tapName_startsWith vm i) hempty) ?_
      fun flows hflows => ⟨flows, (if_neg hne).trans hflows, fun _ _ => Iff.rfl⟩
    refine if_neg ?_
    rw [portToBr_of_ports h.port]
    exact fun heq => hne (some.inj heq)
  tags t tags htags h :=
    h.frame (fun _ => Iff.rfl) (htags _ (Ne.symm htap)) fun flows hflows =>
      ⟨flows, hflows, fun _ _ => Iff.rfl⟩
  delFlows t br table h := by
    refine h.frame (fun _ => Iff.rfl) rfl fun flows hflows => ?_
    simp only [effect, Ovs.setFlows]
    split
    · next heq =>
      refine ⟨_, by rw [← heq, hflows]; rfl, fun f hc => ?_⟩
      rw [mem_filter]
      refine and_iff_left ?_
      rw [hc, beq_eq_false_iff_ne.mpr (Ne.symm htold.1)]
      rfl
    · exact ⟨flows, hflows, fun _ _ => Iff.rfl⟩
  addFlows t new hnew h := by
    obtain ⟨flows₀, hbr₀, hown⟩ := h.flows
    refine h.frame (fun _ => Iff.rfl) rfl fun flows hflows => ?_
    simp only [effect, Ovs.setFlows]
    split
    · next heq =>
      refine ⟨_, by rw [← heq, hflows]; rfl, other_installFlows new flows ?_⟩
      intro g hg
      have hgnic := flowOfNic_nicFlows net tap' b' g (hnew g hg)
      refine ⟨hgnic.cookie ▸ htold.1, fun f hf hc hkey => ?_⟩
      have hfnic := flowOfNic_nicFlows net (tapName vm i) b f
        ((hown f).mp ⟨mem_unique hflows hbr₀ ▸ hf, hc⟩)
      obtain ⟨hmac, hzone⟩ := htold.2 heq.symm
      exact hfnic.told hgnic htap hmac hzone hkey.2.2
    · exact ⟨flows, hflows, fun _ _ => Iff.rfl⟩

/-! ## The loops over the NICs -/

section

variable (h : ∀ j b, bs[j]? = some b → Spared net (tapName vm (i + j)) b P)
include h

theorem Spared.leads_rehomeAll : Leads P P (rehomeAll env net vm i bs) fun _ => P := by
  induction bs generalizing i with
  | nil => exact (keeps_pure _).leads
  | cons b bs ih =>
    have hfirst : Spared net (tapName vm i) b P := h 0 b rfl
    refine leads_bind (Q := fun _ => P) (fun s hs => ⟨hfirst.rehome hs, fun _ _ => hfirst.rehome hs⟩)
      fun _ => ih fun j b hj => ?_
    rw [Nat.add_right_comm]
    exact h (j + 1) b hj

theorem Spared.leads_prepareAll : Leads P P (prepareAll env net vm i bs) fun _ => P := by
  induction bs generalizing i with
  | nil => exact (keeps_pure _).leads
  | cons b bs ih =>
    have hfirst : Spared net (tapName vm i) b P := h 0 b rfl
    refine leads_bind (Q := fun _ => P)
      (fun s hs => ⟨hfirst.prepare hs, fun _ _ => hfirst.prepare hs⟩) fun _ => ih fun j b hj => ?_
    rw [Nat.add_right_comm]
    exact h (j + 1) b hj

end

/-- Every TAP of the VM is where the calls of this backend put it. -/
def AllTraced (net : Backend) (vm : String) (s : Ovs) : Prop := ∀ k, Traced net (tapName vm k) s

section

variable (hnet : net.bridge.startsWith "vxbr" = false) {b₀ : NicBinding}
include hnet

theorem leads_traced_rehome (vm' : String) (index : Nat) (b : NicBinding) :
    Leads (AllTraced net vm) (AllTraced net vm) (rehome env net vm' index b)
      fun _ => AllTraced net vm :=
  fun _ hs => ⟨fun k => traced_rehome hnet vm' index b (hs k),
    fun _ _ k => traced_rehome hnet vm' index b (hs k)⟩

theorem leads_traced_release (vm' : String) (index : Nat) :
    Leads (AllTraced net vm) (AllTraced net vm) (release env net vm' index)
      fun _ => AllTraced net vm :=
  fun _ hs => ⟨fun k => traced_release hnet vm' index (hs k),
    fun _ _ k => traced_release hnet vm' index (hs k)⟩

theorem leads_traced_rehomeAll (bs : List NicBinding) (i : Nat) :
    Leads (AllTraced net vm) (AllTraced net vm) (rehomeAll env net vm i bs)
      fun _ => AllTraced net vm := by
  induction bs generalizing i with
  | nil => exact (keeps_pure _).leads
  | cons b bs ih => exact leads_bind (leads_traced_rehome hnet vm i b) fun _ => ih (i + 1)

omit hnet in
theorem leads_traced_prepareAll (bs : List NicBinding) (i : Nat) :
    Leads (AllTraced net vm) (AllTraced net vm) (prepareAll env net vm i bs)
      fun _ => AllTraced net vm := by
  induction bs generalizing i with
  | nil => exact (keeps_pure _).leads
  | cons b bs ih =>
    refine leads_bind (Q := fun _ => AllTraced net vm) ?_ fun _ => ih (i + 1)
    exact fun _ hs => ⟨fun k => traced_prepare vm i b (hs k), fun _ _ k => traced_prepare vm i b (hs k)⟩

theorem leads_traced_releaseAll (n : Nat) :
    Leads (AllTraced net vm) (AllTraced net vm) (releaseAll env net vm n)
      fun _ => AllTraced net vm := by
  induction n with
  | zero => exact (keeps_pure _).leads
  | succ n ih =>
    refine leads_bind ih fun _ => leads_bind (Q := fun _ => AllTraced net vm) ?_ fun _ =>
      (keeps_pure _).leads
    exact fun s hs => ⟨(leads_traced_release hnet vm n s hs).1,
      fun _ _ => (leads_traced_release hnet vm n s hs).1⟩

theorem leads_traced_ensureNics (old : Option Nat) (bs : List NicBinding) :
    Leads (AllTraced net vm) (AllTraced net vm) (ensureNics env net vm old bs)
      fun _ => AllTraced net vm := by
  cases old with
  | none => exact leads_traced_prepareAll bs 0
  | some n =>
    exact leads_bind (leads_traced_rehomeAll hnet bs 0) fun _ => leads_traced_prepareAll _ n

theorem traced_finishEnsure {s : Target} (bs : List NicBinding) (rest : Rest)
    (h : AllTraced net vm s.ovs) : AllTraced net vm (finishEnsure net vm bs s rest).ovs := by
  cases rest with
  | neverRan env => exact (leads_traced_releaseAll hnet bs.length _ h).1
  | _ => exact h

theorem traced_ensure {s : Target} (bs : List NicBinding) (rest : Rest)
    (h : AllTraced net vm s.ovs) : AllTraced net vm (ensure net vm env bs rest s).ovs := by
  unfold ensure
  split
  · exact (leads_traced_prepareAll bs 0 _ h).1
  · exact (leads_traced_rehomeAll hnet bs 0 _ h).1
  · next old rest _ _ _ =>
    have hnics : AllTraced net vm (ensureNics env net vm s.managed bs s.ovs).state :=
      (leads_traced_ensureNics hnet s.managed bs _ h).1
    dsimp only
    split
    · exact hnics
    · exact traced_finishEnsure hnet bs _ hnics

theorem traced_targetStep {s s' : Target} {e : TargetEvent} (h : AllTraced net vm s.ovs)
    (hstep : targetStep net vm s e = some s') : AllTraced net vm s'.ovs := by
  cases e with
  | nic e =>
    cases hstep
    exact fun k => traced_perform hnet e (h k)
  | ensure env bs rest =>
    cases hstep
    exact traced_ensure hnet bs rest h
  | teardown env terminated =>
    cases hstep
    unfold teardown
    split
    · exact h
    · exact h
    · exact (leads_traced_releaseAll hnet _ _ h).1
  | restart alive => cases alive <;> exact some.inj hstep ▸ h
  | prepareReceive nics =>
    simp only [targetStep] at hstep
    split at hstep <;> exact some.inj hstep ▸ h
  | finalizeReceive =>
    simp only [targetStep, finalizeReceive] at hstep
    split at hstep
    · exact some.inj hstep ▸ h
    · exact some.inj hstep ▸ h
    · cases hstep
  | _ => exact some.inj hstep ▸ h

theorem traced_target {s : Target} (hr : Reach (targetStep net vm) anyStep (Unvisited net vm) s) :
    AllTraced net vm s.ovs :=
  hr.invariant (fun _ hs k => (hs.untouched k).traced) fun _ _ _ hs _ hstep =>
    traced_targetStep hnet hs hstep

/-! ## What a successful `ensure` does -/

omit hnet

theorem add_succ_shift (i j : Nat) : i + (j + 1) = i + 1 + j := by omega

/-- NIC `j` of the bindings from NIC `i` on is told from the others. -/
def ToldFrom (net : Backend) (vm : String) (i : Nat) (bs : List NicBinding) (j : Nat)
    (b : NicBinding) : Prop :=
  ∀ j' b', j' ≠ j → bs[j']? = some b' → Told net (tapName vm (i + j')) (tapName vm (i + j)) b' b

theorem ToldFrom.tail {j : Nat} (h : ToldFrom net vm i (b₀ :: bs) (j + 1) b) :
    ToldFrom net vm (i + 1) bs j b := by
  intro j' b' hne hj'
  have htold := h (j' + 1) b' (fun heq => hne (Nat.succ.inj heq)) hj'
  rwa [add_succ_shift i j', add_succ_shift i j] at htold

theorem ToldFrom.spared (h : ToldFrom net vm i (b₀ :: bs) 0 b) (j : Nat) (b' :
    NicBinding) (hj : bs[j]? = some b') : Spared net (tapName vm (i + 1 + j)) b' (Wired net (tapName
    vm i) b) := by
  have hne : i + 1 + j ≠ i := by omega
  refine spared_wired (fun heq => hne (tapName_inj heq)) ?_
  have htold := h (j + 1) b' (Nat.succ_ne_zero j) hj
  rwa [add_succ_shift] at htold

include hnet

section

variable (hb : b.vni ≠ 0 → b.vlan = 0) (h : Traced net (tapName vm i) s)
include hb h

theorem rehome_result : (rehome allOk net vm i b s).result = some () := by
  by_cases hon : ∃ br, (tapName vm i, br) ∈ s.ports
  · obtain ⟨br, hbr⟩ := hon
    obtain ⟨t, -, -, hall⟩ := rehome_allOk hnet hb h hbr
    exact (result_state_of_passes hall).1
  · exact (result_state_of_passes (rehome_allOk_none fun br hbr => hon ⟨br, hbr⟩)).1

theorem rehomeAll_cons_state :
    (rehomeAll allOk net vm i (b :: bs) s).state = (rehomeAll allOk net vm (i + 1) bs (rehome allOk
    net vm i b s).state).state :=
  bind_state_of_result (rehome_result hnet hb h)

end

section

variable (hb : ∀ b ∈ bs, b.vni ≠ 0 → b.vlan = 0) {j : Nat}
include hb

theorem rehomeAll_unattached (h : AllTraced net vm s) {k :
    Nat} (hnone : ∀ br, (tapName vm k, br) ∉ s.ports) : ∀ br, (tapName vm k, br) ∉ (rehomeAll allOk
    net vm i bs s).state.ports := by
  induction bs generalizing i s with
  | nil => exact hnone
  | cons b bs ih =>
    rw [rehomeAll_cons_state hnet (hb b (mem_cons_self ..)) (h i)]
    refine ih (fun b hmem => hb b (mem_cons_of_mem _ hmem))
      (leads_traced_rehome hnet vm i b s h).1 ?_
    by_cases hik : i = k
    · subst hik
      rwa [(result_state_of_passes (rehome_allOk_none hnone)).2]
    · exact fun br hbr => hnone br ((samePorts_rehome hik b s br).mp hbr)

theorem rehomeAll_wires (h : AllTraced net vm s)
    (hj : bs[j]? = some b) (htold : ToldFrom net vm i bs j b) (hon : ∃ br, (tapName vm (i + j), br)
    ∈ s.ports) : Wired net (tapName vm (i + j)) b (rehomeAll allOk net vm i bs s).state := by
  induction bs generalizing i j s with
  | nil => cases hj
  | cons b₀ bs ih =>
    have hb₀ := hb b₀ (mem_cons_self ..)
    rw [rehomeAll_cons_state hnet hb₀ (h i)]
    cases j with
    | zero =>
      obtain rfl : b₀ = b := some.inj hj
      obtain ⟨br, hbr⟩ := hon
      obtain ⟨t, hwired, -, hall⟩ := rehome_allOk hnet hb₀ (h i) hbr
      rw [(result_state_of_passes hall).2]
      exact (Spared.leads_rehomeAll htold.spared t hwired).1
    | succ j =>
      have hne : i ≠ i + (j + 1) := by omega
      obtain ⟨br, hbr⟩ := hon
      have hbr' : (tapName vm (i + (j + 1)), br) ∈ (rehome allOk net vm i b₀ s).state.ports :=
        (samePorts_rehome hne b₀ s br).mpr hbr
      rw [add_succ_shift] at hbr' ⊢
      exact ih (fun b hmem => hb b (mem_cons_of_mem _ hmem))
        (leads_traced_rehome hnet vm i b₀ s h).1 hj htold.tail ⟨br, hbr'⟩

theorem prepareAll_wires (h : AllTraced net vm s)
    (hj : bs[j]? = some b) (htold : ToldFrom net vm i bs j b) (hok : Passes (prepareAll allOk net vm
    i bs) s fun _ _ => True) : Wired net (tapName vm (i + j)) b (prepareAll allOk net vm i bs
    s).state := by
  induction bs generalizing i j s with
  | nil => cases hj
  | cons b₀ bs ih =>
    have hb₀ := hb b₀ (mem_cons_self ..)
    have hok' := passes_bind.mp hok
    obtain ⟨t, hwired, -, hall⟩ := prepare_allOk hnet hb₀ (h i) (prepare_refused (h i) hok')
    obtain ⟨hres, hstate⟩ := result_state_of_passes hall
    have hcons : (prepareAll allOk net vm i (b₀ :: bs) s).state =
        (prepareAll allOk net vm (i + 1) bs t).state := hstate ▸ bind_state_of_result hres
    rw [hcons]
    cases j with
    | zero =>
      obtain rfl : b₀ = b := some.inj hj
      exact (Spared.leads_prepareAll htold.spared t hwired).1
    | succ j =>
      rw [add_succ_shift]
      exact ih (fun b hmem => hb b (mem_cons_of_mem _ hmem))
        (fun k => hstate ▸ traced_prepare vm i b₀ (h k)) hj htold.tail ((hall _).mp hok')

theorem ensureNics_wired_iff {n : Nat} (htold : AllTold net
    vm bs) (h : AllTraced net vm s) (hok : (ensureNics allOk net vm (some n) bs s).result = some ())
    : (∀ k b, bs[k]? = some b → Wired net (tapName vm k) b (ensureNics allOk net vm (some n) bs
    s).state) ↔ ∀ k < bs.length, k < n → ∃ br, (tapName vm k, br) ∈ s.ports := by
  have hfrom : ∀ i j (cs : List NicBinding) b, (∀ m, cs[m]? = bs[i + m]?) → bs[i + j]? = some b →
      ToldFrom net vm i cs j b := by
    intro i j cs b hcs hij j' b' hne hj'
    exact htold (i + j') (i + j) b' b (by omega) (hcs j' ▸ hj') hij
  have hpasses : Passes (rehomeAll allOk net vm 0 bs >>= fun _ =>
      prepareAll allOk net vm n (bs.drop n)) s fun _ _ => True := ⟨(), hok, trivial⟩
  obtain ⟨⟨⟩, hrehomed, hprepared⟩ := passes_bind.mp hpasses
  have hstate : (ensureNics allOk net vm (some n) bs s).state =
      (prepareAll allOk net vm n (bs.drop n) (rehomeAll allOk net vm 0 bs s).state).state :=
    bind_state_of_result hrehomed
  have htraced : AllTraced net vm (rehomeAll allOk net vm 0 bs s).state :=
    (leads_traced_rehomeAll hnet bs 0 s h).1
  rw [hstate]
  -- NICs of the record are not prepared
  have hspared : ∀ k, k < n → ∀ j, tapName vm (n + j) ≠ tapName vm k := by
    intro k hk j heq
    have := tapName_inj heq
    omega
  constructor
  · intro hwired k hlen hk
    by_contra hnone
    have hafter := rehomeAll_unattached hnet (i := 0) hb h (k := k) fun br hbr => hnone ⟨br, hbr⟩
    have hsame : SamePorts (tapName vm k) (rehomeAll allOk net vm 0 bs s).state
        (prepareAll allOk net vm n (bs.drop n) (rehomeAll allOk net vm 0 bs s).state).state :=
      (Spared.leads_prepareAll (fun j b _ => spared_samePorts (hspared k hk j) b _) _
        fun _ => Iff.rfl).1
    obtain ⟨b, hbk⟩ : ∃ b, bs[k]? = some b := ⟨bs[k], List.getElem?_eq_getElem hlen⟩
    exact hafter _ ((hsame _).mp (((hwired k b hbk).port _).mpr rfl))
  · intro hon k b hbk
    have hlen : k < bs.length := (List.getElem?_eq_some_iff.mp hbk).1
    by_cases hk : k < n
    · have hrehome := rehomeAll_wires hnet hb h (i := 0) (j := k) hbk
        (hfrom 0 k bs b (fun m => by rw [Nat.zero_add]) (by rwa [Nat.zero_add])) (by
          rw [Nat.zero_add]
          exact hon k hlen hk)
      rw [Nat.zero_add] at hrehome
      refine (Spared.leads_prepareAll (fun j b' hj => ?_) _ hrehome).1
      rw [List.getElem?_drop] at hj
      exact spared_wired (hspared k hk j) (htold (n + j) k b' b (by omega) hj hbk)
    · obtain ⟨j, rfl⟩ := Nat.exists_eq_add_of_le (Nat.le_of_not_lt hk)
      refine prepareAll_wires hnet (fun b hmem => hb b (mem_of_mem_drop hmem)) htraced
        (by rwa [List.getElem?_drop]) (hfrom n j _ b (fun m => List.getElem?_drop) hbk) hprepared

theorem rehomeAll_result (h : AllTraced net vm s) :
    (rehomeAll allOk net vm i bs s).result = some () := by
  induction bs generalizing i s with
  | nil => rfl
  | cons b bs ih =>
    have hfirst := rehome_result hnet (hb b (mem_cons_self ..)) (h i)
    show ((rehome allOk net vm i b s).andThen fun _ => rehomeAll allOk net vm (i + 1) bs).result = _
    rw [Done.andThen_some hfirst]
    exact ih (fun b hmem => hb b (mem_cons_of_mem _ hmem)) (leads_traced_rehome hnet vm i b s h).1

end

theorem ensureNics_result {n : Nat} (hlen : bs.length ≤ n) (hb : ∀ b ∈ bs, b.vni ≠ 0 → b.vlan = 0)
    (h : AllTraced net vm s) : (ensureNics allOk net vm (some n) bs s).result = some () := by
  show ((rehomeAll allOk net vm 0 bs s).andThen fun _ =>
    prepareAll allOk net vm n (bs.drop n)).result = _
  rw [Done.andThen_some (rehomeAll_result hnet hb h), drop_eq_nil_of_le hlen]
  rfl

end

end

/-! ## After a migration -/

def TargetEvent.OnlyNic : TargetEvent → Prop
  | .nic _ => True
  | _ => False

theorem ensure_done {env : Command → Outcome}
    (hok : (ensureNics env net vm s.managed bs s.ovs).result = some ()) :
    ensure net vm env bs .done s =
      { s with
        ovs := (ensureNics env net vm s.managed bs s.ovs).state
        record := some bs.length
        managed := some bs.length } := by
  unfold ensure
  split
  · next heq => cases heq
  · next heq => cases heq
  · dsimp only
    rw [hok]
    rfl

theorem finalizeReceive_managed {t : Target} (h : finalizeReceive s = some t) :
    ∃ n, t.managed = some n ∧ t.ovs = s.ovs := by
  unfold finalizeReceive at h
  split at h
  · next n hm =>
    cases h
    exact ⟨n, hm, rfl⟩
  · next nics _ _ =>
    cases h
    exact ⟨nics, rfl, rfl⟩
  · cases h

/-- The first successful `ensure` after `finalize_receive`, with calls for NICs in between.  It wires
every NIC of the VM exactly if the TAPs of those in the record were on some bridge already. -/
theorem migrated_nics_wired_iff {net : Backend} {vm : String} {bs : List NicBinding} {s t u : Target}
    (hnet : net.bridge.startsWith "vxbr" = false) (hb : ∀ b ∈ bs, b.vni ≠ 0 → b.vlan = 0)
    (htold : AllTold net vm bs) (hr : Reach (targetStep net vm) anyStep (Unvisited net vm) s)
    (hfin : targetStep net vm s .finalizeReceive = some t)
    (hcalls : Reach (targetStep net vm) (fun _ e => e.OnlyNic) (· = t) u)
    (hok : (ensureNics allOk net vm u.managed bs u.ovs).result = some ()) :
    ∃ n, u.managed = some n ∧ ((∀ k b, bs[k]? = some b →
          Wired net (tapName vm k) b (ensure net vm allOk bs .done u).ovs) ↔
        ∀ k < bs.length, k < n → ∃ br, (tapName vm k, br) ∈ u.ovs.ports) := by
  obtain ⟨n, hmanaged, hovs⟩ := finalizeReceive_managed hfin
  have hkept : u.managed = some n ∧ AllTraced net vm u.ovs := by
    clear hok
    induction hcalls with
    | start u heq =>
      subst heq
      exact ⟨hmanaged, hovs ▸ traced_target hnet hr⟩
    | next u u' e _ honly hstep hu =>
      refine ⟨?_, traced_targetStep hnet hu.2 hstep⟩
      cases e with
      | nic e => exact some.inj hstep ▸ hu.1
      | _ => exact honly.elim
  refine ⟨n, hkept.1, ?_⟩
  rw [ensure_done hok]
  rw [hkept.1] at hok ⊢
  exact ensureNics_wired_iff hnet hb htold hkept.2 hok

def bareTarget : Target := ⟨bareHost, none, none, none⟩

theorem bareTarget_unvisited : Unvisited intBackend "0a1b2c3d" bareTarget :=
  ⟨rfl, rfl, rfl, fun _ => bareHost_untouched _⟩

theorem allTold_singleton (b : NicBinding) : AllTold net vm [b] := by
  intro i j b b' hne hi hj
  have hlen := (List.getElem?_eq_some_iff.mp hi).1
  have hlen' := (List.getElem?_eq_some_iff.mp hj).1
  simp only [length_singleton] at hlen hlen'
  omega

def received (ovs : Ovs) : Target := ⟨ovs, some 1, some 1, none⟩

theorem reached_received_stay : Reach (targetStep intBackend "0a1b2c3d") anyStep
    (Unvisited intBackend "0a1b2c3d") ⟨onVlan.perform intBackend bareHost, some 1, none, some 1⟩ :=
  .next _ _ (.prepareReceive 1)
    (.next _ _ (.nic onVlan) (.start _ bareTarget_unvisited) trivial rfl) trivial rfl

/-- A guest comes back to a host that has its TAP, now on an overlay. -/
theorem migrated_nics_wired_returning :
    Wired intBackend webTap { webBinding with vni := 7 } (ensure intBackend "0a1b2c3d" allOk
      [{ webBinding with vni := 7 }] .done (received (onVlan.perform intBackend bareHost))).ovs := by
  have hb : ∀ b ∈ [{ webBinding with vni := 7 }], b.vni ≠ 0 → b.vlan = 0 := by decide
  have htraced : AllTraced intBackend "0a1b2c3d" (onVlan.perform intBackend bareHost) :=
    traced_target intBackend_bridge reached_received_stay
  obtain ⟨n, -, hwired⟩ := migrated_nics_wired_iff intBackend_bridge hb (allTold_singleton _)
    reached_received_stay rfl (.start _ rfl) (ensureNics_result intBackend_bridge (Nat.le_refl 1) hb htraced)
  refine hwired.mpr ?_ 0 _ rfl
  intro k hk _
  obtain rfl := Nat.lt_one_iff.mp hk
  exact ⟨"br-int", (onVlan_placed.port _).mpr rfl⟩

/-- **A migrated guest has no network.**  A host that has not seen the guest receives it: `ensure`
succeeds, and its TAP is on no bridge. -/
theorem migrated_nic_unwired :
    Reach (targetStep intBackend "0a1b2c3d") anyStep (Unvisited intBackend "0a1b2c3d")
      ⟨bareHost, some 1, none, some 1⟩ ∧
    targetStep intBackend "0a1b2c3d" ⟨bareHost, some 1, none, some 1⟩ .finalizeReceive =
      some (received bareHost) ∧
    (ensureNics allOk intBackend "0a1b2c3d" (some 1) [webBinding] bareHost).result = some () ∧
    (ensure intBackend "0a1b2c3d" allOk [webBinding] .done (received bareHost)).ovs.ports = [] ∧
    ¬ Wired intBackend (tapName "0a1b2c3d" 0) webBinding
      (ensure intBackend "0a1b2c3d" allOk [webBinding] .done (received bareHost)).ovs := by
  have hports : (ensure intBackend "0a1b2c3d" allOk [webBinding] .done
      (received bareHost)).ovs.ports = [] := by decide
  refine ⟨.next _ _ (.prepareReceive 1) (.start _ bareTarget_unvisited) trivial rfl, rfl, by decide,
    hports, fun hwired => ?_⟩
  have hport := (hwired.port _).mpr rfl
  simp [hports] at hport

end VQuasar.Dataplane
