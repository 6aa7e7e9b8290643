import VQuasar.Lib.Records
import VQuasar.Dataplane.Backend
import VQuasar.Tenancy.Macs

/-!
# The flows of a NIC as text

The agent hands the flows of a NIC to `ovs-ofctl add-flows` as text, a flow a line: what the flow
matches between commas, then `actions=` (`flowLine`).  The name of the TAP, the networks of the rules
and the MAC go into it as they are.  Read back (`readFlows`), the text should be the flows that were
meant, each with the cookie of the TAP, a match that ties it to the NIC and an action of the firewall
(`Confined`).

The name of a TAP is made of digits, and a network has been parsed by the API.  The MAC of a spec has
not: the text is confined exactly if that MAC holds neither a comma nor a line end
(`flows_confined_iff`).
-/

namespace VQuasar.Dataplane

open Tenancy FlowTable Records List Field

variable {f : OvsFlow} {flows : List OvsFlow} {field : Field}

/-! ## Writing -/

/-- `{:#06x}` of a `u16` -/
def hexWord (n : Nat) : String := String.ofList ('0' :: 'x' :: (Hex.byte (n / 256) ++ Hex.byte n))

def CtFlag.text : CtFlag → String
  | .new => "+new+trk"
  | .est => "+est+trk"
  | .rel => "+rel+trk"
  | .inv => "+inv+trk"

/-- A token of a match; `spell` is the text of a network. -/
def Field.token (spell : IpNet → String) : Field → String
  | .inPort tap => "in_port=" ++ tap
  | .dlSrc mac => "dl_src=" ++ mac
  | .dlDst mac => "dl_dst=" ++ mac
  | .arp => "arp"
  | .arpSha mac => "arp_sha=" ++ mac
  | .ip => "ip"
  | .ipv6 => "ipv6"
  | .tcp => "tcp"
  | .tcp6 => "tcp6"
  | .udp => "udp"
  | .udp6 => "udp6"
  | .icmp => "icmp"
  | .icmp6 => "icmp6"
  | .tpSrc port => "tp_src=" ++ toString port
  | .tpDst value mask =>
    if mask = 0xFFFF then "tp_dst=" ++ toString value
    else "tp_dst=" ++ hexWord value ++ "/" ++ hexWord mask
  | .nwSrc net => "nw_src=" ++ spell net
  | .nwDst net => "nw_dst=" ++ spell net
  | .ipv6Src net => "ipv6_src=" ++ spell net
  | .ipv6Dst net => "ipv6_dst=" ++ spell net
  | .ctZone zone => "ct_zone=" ++ toString zone
  | .ctState flag => "ct_state=" ++ flag.text

def Action.text : Action → String
  | .normal => "NORMAL"
  | .drop => "drop"
  | .ct zone => "ct(table=" ++ toString resultTable ++ ",zone=" ++ toString zone ++ ")"
  | .commit zone => "ct(commit,zone=" ++ toString zone ++ "),NORMAL"

def cookieToken (cookie : Nat) : String := "cookie=" ++ toString cookie

/-- What stands before the actions of a flow. -/
def flowTokens (spell : IpNet → String) (f : OvsFlow) : List String :=
  [cookieToken f.cookie, "table=" ++ toString f.table, "priority=" ++ toString f.priority] ++
    f.fields.map (token spell)

/-- The line of a flow, as `build_flows` and `build_port_security_flows` format it. -/
def flowLine (spell : IpNet → String) (f : OvsFlow) : String :=
  ",".intercalate (flowTokens spell f) ++ ",actions=" ++ f.action.text

/-- The characters of an address with a length, which is what parses as an `IpNet` and how an
`IpAddr` is displayed. -/
def cidrChar (c : Char) : Bool := (Hex.value c).isSome || c == '.' || c == ':' || c == '/'

/-- How the networks are spelled, line by line: the same network may have been entered in several
ways. -/
structure Spelling where
  text : Nat → IpNet → String
  chars : ∀ line net, (text line net).toList.all cidrChar

variable (spell : IpNet → String) (spelling : Spelling)

/-- What is piped to `add-flows`. -/
def flowText (flows : List OvsFlow) : String :=
  "\n".intercalate (flows.zipIdx.map fun p => flowLine (spelling.text p.2) p.1)

/-- `short`: the first eight digits of the id -/
def shortId (uuid : BitVec 128) : String :=
  String.ofList (Hex.byte (uuid.toNat / 2 ^ 120) ++ Hex.byte (uuid.toNat / 2 ^ 112) ++
    Hex.byte (uuid.toNat / 2 ^ 104) ++ Hex.byte (uuid.toNat / 2 ^ 96))

/-- The policy of a binding, as `ensure_vm` takes it off the wire. -/
def bindingPolicy (b : NetworkBinding) : Policy :=
  ⟨b.policy.ingressRules.map secRule, b.policy.egressRules.map secRule, b.egressDefaultDeny⟩

/-- The flows that `apply_firewall` pipes, if it pipes any. -/
def pipedFlows (portSecurity : Bool) (tap : String) (mac : MacAddr) (b : NetworkBinding) :
    Option (List OvsFlow) :=
  match b.policy.filtered, portSecurity with
  | true, _ => some (buildFlows tap mac (bindingPolicy b))
  | false, true => some (buildPortSecurityFlows tap mac)
  | false, false => none

/-! ## Reading -/

/-- The text as one flow a line: matches between commas, up to the first `,actions=`. -/
def readFlows (text : String) : List (Record Char) :=
  parseFile ',' "actions=".toList '\n' text.toList

def intended (f : OvsFlow) : Record Char :=
  ⟨(flowTokens spell f).map String.toList, some f.action.text.toList⟩

def nicActions (tap : String) : List Action :=
  [.normal, .drop, .ct (zoneFor tap), .commit (zoneFor tap)]

/-- The text is the flows that are meant, and each is the NIC's own. -/
structure Confined (tap : String) (mac : MacAddr) (spelling : Spelling) (flows : List OvsFlow) :
    Prop where
  exact : readFlows (flowText spelling flows) =
    flows.zipIdx.map fun p => intended (spelling.text p.2) p.1
  cookie : ∀ r ∈ readFlows (flowText spelling flows),
    (cookieToken (cookieFor tap)).toList ∈ r.fields
  bound : ∀ r ∈ readFlows (flowText spelling flows),
    ("in_port=" ++ tap).toList ∈ r.fields ∨ ("dl_dst=" ++ mac).toList ∈ r.fields ∨
      ("ct_zone=" ++ toString (zoneFor tap)).toList ∈ r.fields
  actions : ∀ r ∈ readFlows (flowText spelling flows),
    ∃ a ∈ nicActions tap, r.tail = some a.text.toList

/-! ## Texts without commas and line ends -/

def plain (text : String) : Bool := text.toList.all fun c => c != ',' && c != '\n'

theorem plain_iff {text : String} : plain text ↔ ',' ∉ text.toList ∧ '\n' ∉ text.toList := by
  simp only [plain, all_eq_true, Bool.and_eq_true, bne_iff_ne]
  constructor
  · intro h
    exact ⟨fun hmem => (h _ hmem).1 rfl, fun hmem => (h _ hmem).2 rfl⟩
  · rintro ⟨hcomma, hend⟩ c hc
    exact ⟨fun heq => hcomma (heq ▸ hc), fun heq => hend (heq ▸ hc)⟩

@[simp] theorem plain_append (a b : String) : plain (a ++ b) = (plain a && plain b) := by
  simp only [plain, String.toList_append, all_append]

@[simp] theorem plain_toString (n : Nat) : plain (toString n) := by
  have hdigits : (toString n).toList = Nat.toDigits 10 n := Nat.toList_repr
  rw [plain_iff, hdigits]
  constructor
  · intro hmem
    exact absurd (Nat.isDigit_of_mem_toDigits (by omega) (by omega) hmem) (by decide)
  · intro hmem
    exact absurd (Nat.isDigit_of_mem_toDigits (by omega) (by omega) hmem) (by decide)

theorem byte_plain (n : Nat) : (Hex.byte n).all (fun c => c != ',' && c != '\n') = true := by
  have hdigit : ∀ d < 16, (Nat.digitChar d != ',' && Nat.digitChar d != '\n') = true := by decide
  simp only [Hex.byte, all_cons, all_nil, Bool.and_true]
  rw [hdigit _ (Nat.mod_lt _ (by omega)), hdigit _ (Nat.mod_lt _ (by omega))]
  rfl

@[simp] theorem plain_hexWord (n : Nat) : plain (hexWord n) := by
  simp [plain, hexWord, byte_plain]

@[simp] theorem plain_shortId (uuid : BitVec 128) : plain (shortId uuid) := by
  simp only [plain, shortId, String.toList_ofList, all_append, byte_plain, Bool.and_self]

theorem plain_tapName (uuid : BitVec 128) (index : Nat) : plain (tapName (shortId uuid) index) := by
  have htap : plain "tap" := by decide
  simp only [tapName, plain_append, htap, plain_shortId, plain_toString, Bool.and_self]

theorem macText_plain (octets : List Nat) :
    (macText octets).all (fun c => c != ',' && c != '\n') = true := by
  induction octets with
  | nil => rfl
  | cons x xs ih =>
    cases xs with
    | nil => exact byte_plain x
    | cons y ys =>
      show (Hex.byte x ++ ':' :: macText (y :: ys)).all _ = true
      rw [all_append, byte_plain, all_cons, ih]
      decide

theorem plain_allocateMac (vm : BitVec 128) (index : Nat) : plain (allocateMac vm index) := by
  rw [plain, allocateMac, String.toList_ofList]
  exact macText_plain _

theorem Spelling.plain_text (line : Nat) (net : IpNet) : plain (spelling.text line net) := by
  have hchars := all_eq_true.mp (spelling.chars line net)
  rw [plain_iff]
  constructor
  · intro hmem
    exact absurd (hchars _ hmem) (by decide)
  · intro hmem
    exact absurd (hchars _ hmem) (by decide)

/-! ## The flows of a NIC -/

/-- The texts of others that a token holds. -/
def Field.names : Field → List String
  | .inPort tap => [tap]
  | .dlSrc mac | .dlDst mac | .arpSha mac => [mac]
  | _ => []

/-- What the flows of a NIC have in common. -/
structure OfNic (tap : String) (mac : MacAddr) (f : OvsFlow) : Prop where
  cookie : f.cookie = cookieFor tap
  bound : .inPort tap ∈ f.fields ∨ .dlDst mac ∈ f.fields ∨ .ctZone (zoneFor tap) ∈ f.fields
  names : ∀ field ∈ f.fields, ∀ t ∈ field.names, t = tap ∨ t = mac
  action : f.action ∈ nicActions tap

section

variable {tap : String} {mac : MacAddr} {policy : Policy} {dir : Direction} {own : List Field}

theorem ruleMatches_names {r : SecRule} {m : List Field} (h : m ∈ ruleMatches r
    dir) (hfield : field ∈ m) : field.names = [] := by
  have hproto : r.proto.names = [] := by
    unfold SecRule.proto
    cases r.protocol <;> cases r.ipv6 <;> rfl
  have hremote : ∀ x ∈ r.remote dir, x.names = [] := by
    intro x hx
    unfold SecRule.remote at hx
    split at hx
    · cases hx
    all_goals
      rw [mem_singleton] at hx
      subst hx
      rfl
  unfold ruleMatches at h
  split at h
  · obtain ⟨vm, -, rfl⟩ := mem_map.mp h
    rcases mem_cons.mp hfield with rfl | hfield
    · exact hproto
    · rcases mem_cons.mp hfield with rfl | hfield
      · rfl
      · exact hremote _ hfield
  · rw [mem_singleton] at h
    subst h
    rcases mem_cons.mp hfield with rfl | hfield
    · exact hproto
    · exact hremote _ hfield

theorem buildPortSecurityFlows_ofNic : ∀ f ∈ buildPortSecurityFlows tap mac, OfNic tap mac f := by
  intro f hf
  simp only [buildPortSecurityFlows, mem_cons, not_mem_nil, or_false] at hf
  rcases hf with rfl | rfl | rfl <;> constructor <;> simp [nicActions, names]

theorem classifyFlows_ofNic {dirMatch arpExtra : List Field}
    (hbound : .inPort tap ∈ dirMatch ∨ .dlDst mac ∈ dirMatch)
    (hnames : ∀ field ∈ dirMatch ++ arpExtra, ∀ t ∈ field.names, t = tap ∨ t = mac) :
    ∀ f ∈ classifyFlows (cookieFor tap) (zoneFor tap) dirMatch arpExtra, OfNic tap mac f := by
  have htied : ∀ rest : List Field, .inPort tap ∈ dirMatch ++ rest ∨ .dlDst mac ∈ dirMatch ++ rest ∨
      .ctZone (zoneFor tap) ∈ dirMatch ++ rest := by
    intro rest
    rcases hbound with h | h
    · exact Or.inl (mem_append_left rest h)
    · exact Or.inr (Or.inl (mem_append_left rest h))
  have hone : ∀ x : Field, x.names = [] → ∀ field ∈ dirMatch ++ [x], ∀ t ∈ field.names,
      t = tap ∨ t = mac := by
    intro x hx field hfield t ht
    rcases mem_append.mp hfield with h | h
    · exact hnames field (mem_append_left arpExtra h) t ht
    · simp [mem_singleton.mp h, hx] at ht
  intro f hf
  simp only [classifyFlows, mem_cons, not_mem_nil, or_false] at hf
  rcases hf with rfl | rfl | rfl | rfl
  · refine ⟨rfl, htied _, fun field hfield t ht => ?_, by simp [nicActions]⟩
    rcases mem_append.mp hfield with h | h
    · exact hnames field (mem_append_left arpExtra h) t ht
    · rcases mem_cons.mp h with rfl | h
      · cases ht
      · exact hnames field (mem_append_right dirMatch h) t ht
  · exact ⟨rfl, htied _, hone _ rfl, by simp [nicActions]⟩
  · exact ⟨rfl, htied _, hone _ rfl, by simp [nicActions]⟩
  · exact ⟨rfl, htied _, hone _ rfl, by simp [nicActions]⟩

section

variable (hown : ∀ field ∈ own, ∀ t ∈ field.names, t = tap ∨ t = mac)
include hown

theorem result_ofNic {priority : Nat} {rest : List Field} {action : Action}
    (hrest : ∀ field ∈ rest, field.names = []) (haction : action ∈ nicActions tap) : OfNic tap mac
      ⟨cookieFor tap, resultTable, priority, newIn (zoneFor tap) ++ own ++ rest, action⟩ := by
  refine ⟨rfl, Or.inr (Or.inr (by simp [newIn])), fun field hfield t ht => ?_, haction⟩
  rcases mem_append.mp hfield with h | h
  · rcases mem_append.mp h with h | h
    · simp only [newIn, mem_cons, not_mem_nil, or_false] at h
      rcases h with rfl | rfl <;> cases ht
    · exact hown field h t ht
  · simp [hrest field h] at ht

theorem NewFlow.ofNic {rules : List SecRule} {closed : Bool} {high low : Nat}
    (h : NewFlow (cookieFor tap) (zoneFor tap) own dir rules closed high low f) : OfNic tap mac f := by
  cases h with
  | rule hr hm => exact result_ofNic hown (fun field => ruleMatches_names hm) (by simp [nicActions])
  | deny => exact result_ofNic hown (fun _ h => nomatch h) (by simp [nicActions])
  | all hopen hm =>
    refine result_ofNic hown ?_ (by simp [nicActions])
    rcases hm with rfl | rfl <;> simp [names]

end

theorem buildFlows_ofNic : ∀ f ∈ buildFlows tap mac policy, OfNic tap mac f := by
  intro f hf
  simp only [buildFlows, mem_append, or_assoc] at hf
  rcases hf with hf | hf | hf | hf | hf | hf
  · exact classifyFlows_ofNic (by simp) (by simp [names]) f hf
  · exact classifyFlows_ofNic (by simp) (by simp [names]) f hf
  · simp only [mem_cons, not_mem_nil, or_false] at hf
    rcases hf with rfl | rfl | rfl | rfl | rfl <;> constructor <;> simp [nicActions, names]
  · exact (mem_egressFlows hf).ofNic (by simp [names])
  · exact (mem_ingressFlows hf).ofNic (by simp [names])
  · rw [mem_singleton] at hf
    subst hf
    constructor <;> simp [nicActions, names]

/-! ## Written and read back -/

theorem plain_token {spell : IpNet → String} (hspell : ∀ net, plain (spell net)) (h : ∀ t ∈
    field.names, plain t) : plain (field.token spell) := by
  have hkey : ∀ key text : String, plain key → plain text → plain (key ++ text) := by
    intro key text hkey htext
    rw [plain_append, hkey, htext]
    rfl
  cases field with
  | inPort tap | dlSrc tap | dlDst tap | arpSha tap =>
    exact hkey _ _ (by decide) (h tap mem_cons_self)
  | tpSrc port => exact hkey _ _ (by decide) (plain_toString port)
  | tpDst value mask =>
    simp only [token]
    split
    · exact hkey _ _ (by decide) (plain_toString value)
    · exact hkey _ _ (hkey _ _ (hkey _ _ (by decide) (plain_hexWord value)) (by decide))
        (plain_hexWord mask)
  | nwSrc net | nwDst net | ipv6Src net | ipv6Dst net => exact hkey _ _ (by decide) (hspell net)
  | ctZone zone => exact hkey _ _ (by decide) (plain_toString zone)
  | ctState flag => exact hkey _ _ (by decide) (by cases flag <;> decide)
  | _ =>
    simp only [token]
    decide

theorem token_not_actions (field : Field) :
    "actions=".toList.isPrefixOf (field.token spell).toList = false := by
  cases field with
  | tpDst value mask =>
    simp only [token]
    split
    · rw [String.toList_append]
      rfl
    · simp only [String.toList_append]
      rfl
  | arp | ip | ipv6 | tcp | tcp6 | udp | udp6 | icmp | icmp6 =>
    simp only [token]
    decide
  | _ =>
    rw [token, String.toList_append]
    rfl

theorem plain_flowTokens {spell : IpNet → String} (hspell : ∀ net, plain (spell net)) (htap :
    plain tap) (hmac : plain mac) (hf : OfNic tap mac f) : ∀ t ∈ flowTokens spell f, plain t := by
  intro t ht
  simp only [flowTokens, cookieToken, mem_append, mem_cons, not_mem_nil, or_false,
    mem_map] at ht
  have hkey : ∀ (key : String) (n : Nat), plain key → plain (key ++ toString n) := by
    intro key n hkey
    rw [plain_append, hkey, plain_toString]
    rfl
  rcases ht with (rfl | rfl | rfl) | ⟨field, hfield, rfl⟩
  · exact hkey _ _ (by decide)
  · exact hkey _ _ (by decide)
  · exact hkey _ _ (by decide)
  · refine plain_token hspell fun t ht => ?_
    rcases hf.names field hfield t ht with rfl | rfl
    · exact htap
    · exact hmac

theorem flowTokens_not_actions (f : OvsFlow) :
    ∀ t ∈ flowTokens spell f, "actions=".toList.isPrefixOf t.toList = false := by
  intro t ht
  simp only [flowTokens, cookieToken, mem_append, mem_cons, not_mem_nil, or_false,
    mem_map] at ht
  rcases ht with (rfl | rfl | rfl) | ⟨field, -, rfl⟩
  · rw [String.toList_append]
    rfl
  · rw [String.toList_append]
    rfl
  · rw [String.toList_append]
    rfl
  · exact token_not_actions spell field

theorem toList_flowLine (f : OvsFlow) : (flowLine spell f).toList =
      text ',' "actions=".toList ((flowTokens spell f).map String.toList) f.action.text.toList := by
  have hsep : ",".toList = [','] := by decide
  have hkey : ",actions=".toList = ',' :: "actions=".toList := by decide
  rw [flowLine, String.toList_append, String.toList_append, String.toList_intercalate, hsep, hkey, text,
    append_assoc, cons_append]

theorem toList_flowText (flows : List OvsFlow) :
    (flowText spelling flows).toList = ['\n'].intercalate (flows.zipIdx.map fun p =>
      text ',' "actions=".toList ((flowTokens (spelling.text p.2) p.1).map String.toList)
        p.1.action.text.toList) := by
  have hend : "\n".toList = ['\n'] := by decide
  rw [flowText, String.toList_intercalate, hend, map_map]
  simp only [Function.comp_def, toList_flowLine]

theorem lineEnd_not_mem_action (a : Action) : '\n' ∉ a.text.toList := by
  have hnat : ∀ n : Nat, '\n' ∉ (toString n).toList := fun n => (plain_iff.mp (plain_toString n)).2
  have happend : ∀ x y : String, '\n' ∉ x.toList → '\n' ∉ y.toList → '\n' ∉ (x ++ y).toList := by
    intro x y hx hy
    rw [String.toList_append, mem_append, not_or]
    exact ⟨hx, hy⟩
  cases a with
  | normal | drop => decide
  | ct zone =>
    show '\n' ∉ ("ct(table=" ++ toString resultTable ++ ",zone=" ++ toString zone ++ ")").toList
    refine happend _ _ (happend _ _ (happend _ _ (happend _ _ ?_ (hnat _)) ?_) (hnat zone)) ?_ <;>
      decide
  | commit zone =>
    show '\n' ∉ ("ct(commit,zone=" ++ toString zone ++ "),NORMAL").toList
    refine happend _ _ (happend _ _ ?_ (hnat zone)) ?_ <;> decide

theorem parse_flowLine {spell : IpNet → String} (hspell : ∀ net, plain (spell net)) (htap :
    plain tap) (hmac : plain mac) (hf : OfNic tap mac f) : parse ',' "actions=".toList
    (text ',' "actions=".toList ((flowTokens spell f).map String.toList) f.action.text.toList) =
    intended spell f ∧ '\n' ∉ text ',' "actions=".toList ((flowTokens spell f).map String.toList)
    f.action.text.toList := by
  have htokens : ∀ t ∈ (flowTokens spell f).map String.toList, ',' ∉ t ∧ '\n' ∉ t := by
    intro t ht
    obtain ⟨token, htoken, rfl⟩ := mem_map.mp ht
    exact plain_iff.mp (plain_flowTokens hspell htap hmac hf token htoken)
  constructor
  · refine parse_text (by simp [flowTokens]) (fun t ht => (htokens t ht).1) (by decide) fun t ht => ?_
    obtain ⟨token, htoken, rfl⟩ := mem_map.mp ht
    exact flowTokens_not_actions spell f token htoken
  · exact not_mem_text (by decide) (by decide) (fun t ht => (htokens t ht).2)
      (lineEnd_not_mem_action f.action)

/-- **Plain flows are read as they are meant.** -/
theorem readFlows_flowText (spelling : Spelling) (hne : flows ≠ []) (hflows : ∀ f ∈ flows, OfNic tap
    mac f) (htap : plain tap) (hmac : plain mac) : readFlows (flowText spelling flows)
    = flows.zipIdx.map fun p => intended (spelling.text p.2) p.1 := by
  have hline : ∀ p ∈ flows.zipIdx, OfNic tap mac p.1 :=
    fun p hp => hflows p.1 (fst_mem_of_mem_zipIdx hp)
  rw [readFlows, toList_flowText, parseFile_text, map_map]
  · refine map_congr_left fun p hp => ?_
    rw [Function.comp_apply, (parse_flowLine (spelling.plain_text p.2) htap hmac (hline p hp)).1]
  · simpa using hne
  · intro l hl
    obtain ⟨p, hp, rfl⟩ := mem_map.mp hl
    exact (parse_flowLine (spelling.plain_text p.2) htap hmac (hline p hp)).2

theorem token_mem_intended (h : field ∈ f.fields) : (field.token
    spell).toList ∈ (intended spell f).fields := by
  have hmem : field.token spell ∈ flowTokens spell f :=
    mem_append_right _ (mem_map_of_mem h)
  exact mem_map_of_mem hmem

theorem confined_of_plain (spelling : Spelling) (hne : flows ≠ []) (hflows : ∀ f ∈ flows, OfNic tap
    mac f) (htap : plain tap) (hmac : plain mac) : Confined tap mac spelling flows :=
    by
  have hread := readFlows_flowText spelling hne hflows htap hmac
  -- every line that is read is the line of a flow of the NIC
  have hflow : ∀ r ∈ readFlows (flowText spelling flows), ∃ spell f, OfNic tap mac f ∧
      r = intended spell f := by
    intro r hr
    rw [hread] at hr
    obtain ⟨p, hp, rfl⟩ := mem_map.mp hr
    exact ⟨_, p.1, hflows p.1 (fst_mem_of_mem_zipIdx hp), rfl⟩
  refine ⟨hread, fun r hr => ?_, fun r hr => ?_, fun r hr => ?_⟩
  · obtain ⟨spell, f, hf, rfl⟩ := hflow r hr
    rw [← hf.cookie]
    exact mem_cons_self
  · obtain ⟨spell, f, hf, rfl⟩ := hflow r hr
    rcases hf.bound with h | h | h
    · have htoken := token_mem_intended spell h
      rw [token] at htoken
      exact Or.inl htoken
    · have htoken := token_mem_intended spell h
      rw [token] at htoken
      exact Or.inr (Or.inl htoken)
    · have htoken := token_mem_intended spell h
      rw [token] at htoken
      exact Or.inr (Or.inr htoken)
  · obtain ⟨spell, f, hf, rfl⟩ := hflow r hr
    exact ⟨f.action, hf.action, rfl⟩

theorem plain_of_confined {spelling : Spelling} (h : Confined tap mac spelling flows) (hf : f ∈
    flows) (hmac : .dlSrc mac ∈ f.fields) : plain mac := by
  obtain ⟨k, hk⟩ : ∃ k, (f, k) ∈ flows.zipIdx := by
    obtain ⟨k, hk⟩ := List.getElem?_of_mem hf
    exact ⟨k, mem_zipIdx_iff_getElem?.mpr hk⟩
  have hr : intended (spelling.text k) f ∈ readFlows (flowText spelling flows) := by
    rw [h.exact]
    exact mem_map.mpr ⟨(f, k), hk, rfl⟩
  have hplain := plain_iff.mpr (mem_parseFile_fields hr (token_mem_intended _ hmac))
  rw [token, plain_append, Bool.and_eq_true] at hplain
  exact hplain.2

end

/-! ## What the control plane sends -/

def FlowsConfined (uuid : Id → BitVec 128) (portSecurity : Bool) (vm : Id)
    (index : Nat) (b : NetworkBinding) : Prop :=
  ∀ flows, pipedFlows portSecurity (tapName (shortId (uuid vm)) index) (b.mac.text uuid) b = some flows →
    Confined (tapName (shortId (uuid vm)) index) (b.mac.text uuid) spelling flows

variable {portSecurity : Bool} {b : NetworkBinding} {tap : String} {mac : MacAddr}

theorem pipedFlows_eq_none :
    pipedFlows portSecurity tap mac b = none ↔ b.policy.filtered = false ∧ portSecurity = false := by
  unfold pipedFlows
  cases b.policy.filtered <;> cases portSecurity <;> simp

/-- The flows that are piped are the NIC's own, and one of them holds its MAC. -/
theorem pipedFlows_ofNic
    (h : pipedFlows portSecurity tap mac b = some flows) : (∀ f ∈ flows, OfNic tap mac f) ∧ ∃ f ∈
    flows, .dlSrc mac ∈ f.fields := by
  unfold pipedFlows at h
  split at h
  · cases h
    exact ⟨buildFlows_ofNic, _, mem_cons_self, by simp⟩
  · cases h
    exact ⟨buildPortSecurityFlows_ofNic, _, mem_cons_self, by simp⟩
  · cases h

/-- **Flow text confinement.**  What the agent pipes to `add-flows` for a NIC is read as the flows
that were meant, and nothing else, exactly if nothing is piped or the MAC that the spec asks for
holds neither a comma nor a line end. -/
theorem flows_confined_iff (uuid : Id → BitVec 128) (portSecurity : Bool)
    {cfg : Config} {db : Db} {vm : Vm} {i : Nat} {b : NetworkBinding} (h : Sends cfg db vm i b) :
    FlowsConfined spelling uuid portSecurity vm.id i b ↔
      (b.policy.filtered = false ∧ portSecurity = false) ∨
        ∀ nic mac, vm.spec.networkInterfaces[i]? = some nic → nic.mac = some mac → plain mac := by
  obtain ⟨nic, hnic, hmac⟩ := h.nic
  constructor
  · intro hconfined
    cases hpiped : pipedFlows portSecurity (tapName (shortId (uuid vm.id)) i) (b.mac.text uuid) b with
    | none => exact Or.inl (pipedFlows_eq_none.mp hpiped)
    | some flows =>
    refine Or.inr fun nic' mac hnic' hgiven => ?_
    obtain ⟨-, f, hf, hfield⟩ := pipedFlows_ofNic hpiped
    have hplain := plain_of_confined (hconfined flows hpiped) hf hfield
    rw [hnic, Option.some.injEq] at hnic'
    subst hnic'
    rwa [hmac, NetworkInterfaceSpec.macOf, hgiven] at hplain
  · intro hok flows hpiped
    obtain ⟨hflows, f, hf, -⟩ := pipedFlows_ofNic hpiped
    refine confined_of_plain spelling (ne_nil_of_mem hf) hflows (plain_tapName _ _) ?_
    rcases hok with hnone | hok
    · simp [pipedFlows_eq_none.mpr hnone] at hpiped
    · rw [hmac, NetworkInterfaceSpec.macOf]
      cases hgiven : nic.mac with
      | none => exact plain_allocateMac _ _
      | some => exact hok nic _ hnic hgiven

def oneSpelling : Spelling := ⟨fun _ _ => "10.0.0.0/8", fun _ _ => by decide⟩

/-- After a VM with one NIC was created, with this MAC. -/
def macDb (mac : String) : Db :=
  Runs.final (step sampleCfg) sampleDb
    [.request (some alice) (.id 2) (.createVm ⟨"web", withMacs [some mac]⟩)]

theorem flows_confined_iff_address :
    ∃ vm ∈ (macDb "02:00:00:00:00:07").vms, ∃ b, Sends sampleCfg (macDb "02:00:00:00:00:07") vm 0 b ∧
      FlowsConfined oneSpelling countedIds true vm.id 0 b := by
  have hsent : ∃ vm ∈ (macDb "02:00:00:00:00:07").vms.rows,
      ∃ b ∈ sentAs (macDb "02:00:00:00:00:07") vm 0,
        ∀ nic ∈ vm.spec.networkInterfaces, nic.mac.all plain := by decide
  obtain ⟨vm, hvm, b, hb, hplain⟩ := hsent
  refine ⟨vm, hvm, b, sends_of_sentAs hb, ?_⟩
  refine (flows_confined_iff oneSpelling countedIds true (sends_of_sentAs hb)).mpr (Or.inr ?_)
  intro nic mac hnic hmac
  have hnic' := hplain nic (mem_of_getElem? hnic)
  rwa [hmac] at hnic'

/-- A MAC that ends the line, adds a flow of its own and begins another line. -/
def injectedMac : String :=
  "02:00:00:00:00:01,actions=NORMAL\npriority=65535,actions=NORMAL\ncookie=1"

/-- **A MAC that is a flow.**  Among the lines that the agent pipes for a MAC with commas and line
ends is one that forwards every frame of the bridge, with the highest priority and without a cookie.
-/
theorem mac_adds_flow : ∃ db, Runs.Reach (step sampleCfg) Runs.anyStep Fresh db ∧
      ∃ vm ∈ db.vms, ∃ b flows, Sends sampleCfg db vm 0 b ∧
        pipedFlows true (tapName (shortId (countedIds vm.id)) 0) (b.mac.text countedIds) b =
          some flows ∧
        ⟨["priority=65535".toList], some "NORMAL".toList⟩ ∈ readFlows (flowText oneSpelling flows) ∧
        ¬ FlowsConfined oneSpelling countedIds true vm.id 0 b := by
  have hreach : Runs.Reach (step sampleCfg) Runs.anyStep Fresh (macDb injectedMac) :=
    Runs.Reach.final_anyStep ⟨rfl, rfl⟩ (by decide)
  have hsent : ∃ vm ∈ (macDb injectedMac).vms.rows, ∃ b ∈ sentAs (macDb injectedMac) vm 0,
      plain (b.mac.text countedIds) = false ∧
      ∃ flows ∈ (pipedFlows true (tapName (shortId (countedIds vm.id)) 0) (b.mac.text countedIds)
          b).toList,
        ⟨["priority=65535".toList], some "NORMAL".toList⟩ ∈ readFlows (flowText oneSpelling flows) := by
    simp only [readFlows, toList_flowText]
    decide +kernel
  obtain ⟨vm, hvm, b, hb, hplain, flows, hflows, hline⟩ := hsent
  have hpiped := Option.mem_toList.mp hflows
  refine ⟨_, hreach, vm, hvm, b, flows, sends_of_sentAs hb, hpiped, hline, fun hconfined => ?_⟩
  obtain ⟨-, f, hf, hfield⟩ := pipedFlows_ofNic hpiped
  have hmac := plain_of_confined (hconfined flows hpiped) hf hfield
  simp [hplain] at hmac

end VQuasar.Dataplane
