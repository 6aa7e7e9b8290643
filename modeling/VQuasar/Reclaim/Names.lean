import VQuasar.Lib.Hex
import VQuasar.Tenancy.Files

/-!
# Whose file it is, by its name

`owner` of `orphans.rs`: the row that a file in a pool belongs to is read off its name.  The names are
the ones that the platform generates (`FileName.spelled`), with ids of 128 bits in the usual
hyphenated form; whatever the platform has named is attributed to its row (`Generated.owner`).  More
is attributed than that: other forms of an id, other extensions and numbers with leading zeros are
tolerated (`owner_exact_iff`).
-/

namespace VQuasar.Reclaim

open Tenancy List

/-! ## Ids as text -/

/-- The digits in groups, with hyphens between them. -/
def uuidGroups (ds : List Char) : List (List Char) :=
  [ds.take 8, (ds.drop 8).take 4, (ds.drop 12).take 4, (ds.drop 16).take 4, ds.drop 20]

def uuidText (id : Id) : List Char := ['-'].intercalate (uuidGroups (Hex.digits 32 id))

/-- `parse_hyphenated` of the uuid crate -/
def parseHyphenated (s : List Char) : Option Id :=
  let groups := s.splitOn '-'
  if groups.map List.length = [8, 4, 4, 4, 12] then Hex.readDigits 0 groups.flatten else none

/-- `Uuid::from_str`: the simple, the hyphenated, the braced and the URN form. -/
def parseUuid (s : List Char) : Option Id :=
  if s.length = 32 then Hex.readDigits 0 s
  else if s.length = 36 then parseHyphenated s
  else if s.length = 38 ∧ s.head? = some '{' ∧ s.getLast? = some '}' then
    parseHyphenated ((s.drop 1).take 36)
  else if s.length = 45 ∧ s.take 9 = "urn:uuid:".toList then parseHyphenated (s.drop 9)
  else none

/-! ## Names -/

inductive Owner
  | vm (id : Id)
  | volume (id : Id)
deriving DecidableEq, Repr

def rsplitOnce (c : Char) : List Char → Option (List Char × List Char)
  | [] => none
  | x :: xs =>
    match rsplitOnce c xs with
    | some (before, after) => some (x :: before, after)
    | none => if x = c then some ([], xs) else none

/-- `strip_prefix` -/
def stripStart (start s : List Char) : Option (List Char) :=
  if start.isPrefixOf s then some (s.drop start.length) else none

def isDiskSuffix (s : List Char) : Bool :=
  ((stripStart "-disk".toList s).or (stripStart "-d".toList s)).any fun n =>
    !n.isEmpty && n.all Char.isDigit

/-- `owner`.  The code takes bytes where this takes characters: an id is ASCII, so a name in which the
two differ has none. -/
def owner (fileName : List Char) : Option Owner :=
  match rsplitOnce '.' fileName with
  | none => none
  | some (stem, _) =>
    match stripStart "vol-".toList stem with
    | some rest => (parseUuid rest).map .volume
    | none =>
      if stem.length < 36 then none
      else
        match parseUuid (stem.take 36) with
        | none => none
        | some id => if stem.drop 36 = [] ∨ isDiskSuffix (stem.drop 36) then some (.vm id) else none

def decimal (n : Nat) : List Char := Nat.toDigits 10 n

end VQuasar.Reclaim

namespace VQuasar.Tenancy

open Reclaim

def Format.spelled : Format → List Char
  | .raw => "raw".toList
  | .qcow2 => "qcow2".toList

def FileName.spelled : FileName → List Char
  | .volume id ext => "vol-".toList ++ uuidText id ++ '.' :: ext.spelled
  | .vmDisk vm i ext => uuidText vm ++ ("-disk".toList ++ decimal i) ++ '.' :: ext.spelled
  | .vmRoot vm ext => uuidText vm ++ '.' :: ext.spelled
  | .vmAdded vm n ext => uuidText vm ++ ("-d".toList ++ decimal n) ++ '.' :: ext.spelled
  | .image id ext => "img-".toList ++ uuidText id ++ '.' :: ext.spelled
  | .named name => name.toList

def Component.spelled : Component → List Char
  | .normal name => name.spelled
  | .curDir => ['.']
  | .parentDir => ['.', '.']

/-- Two paths that name one file. -/
def HostPath.Same (p q : HostPath) : Prop :=
  p.absolute = q.absolute ∧ p.components.map Component.spelled = q.components.map Component.spelled

def HostPath.owner (p : HostPath) : Option Owner :=
  (p.components.map Component.spelled).getLast?.bind Reclaim.owner

end VQuasar.Tenancy

namespace VQuasar.Reclaim

open Tenancy List

/-! ## Reading them back -/

variable {id : Id} {ext s suffix text : List Char} {x : Owner} {c : Char} {after : List Char}

theorem length_uuidText (id : Id) : (uuidText id).length = 36 := by
  simp [uuidText, uuidGroups, intercalate]

theorem flatten_uuidGroups (ds : List Char) : (uuidGroups ds).flatten = ds := by
  simp only [uuidGroups, flatten_cons, flatten_nil, append_nil]
  rw [← drop_drop (i := 4) (j := 16) (l := ds), take_append_drop,
    ← drop_drop (i := 4) (j := 12) (l := ds), take_append_drop,
    ← drop_drop (i := 4) (j := 8) (l := ds), take_append_drop, take_append_drop]

theorem hyphen_notMem_groups (n : Nat) : ∀ g ∈ uuidGroups (Hex.digits 32 n), '-' ∉ g := by
  intro g hg hmem
  have hdigits : '-' ∈ Hex.digits 32 n := by
    rw [← flatten_uuidGroups (Hex.digits 32 n)]
    exact mem_flatten.mpr ⟨g, hg, hmem⟩
  obtain ⟨d, hd, heq⟩ := Hex.mem_digits hdigits
  have hne : ∀ d < 16, '-' ≠ Nat.digitChar d := by decide
  exact hne d hd heq

theorem parseUuid_uuidText (h : id < 2 ^ 128) : parseUuid (uuidText id) = some id := by
  have hsplit : (uuidText id).splitOn '-' = uuidGroups (Hex.digits 32 id) :=
    splitOn_intercalate '-' (hyphen_notMem_groups id) (cons_ne_nil _ _)
  have hlen : (uuidGroups (Hex.digits 32 id)).map List.length = [8, 4, 4, 4, 12] := by
    simp [uuidGroups]
  have hbound : id < 16 ^ 32 := h
  rw [parseUuid, length_uuidText, if_neg (by decide), if_pos rfl, parseHyphenated]
  simp only [hsplit, hlen, if_true, flatten_uuidGroups, Hex.readDigits_digits, Nat.zero_mul,
    Nat.zero_add, Nat.mod_eq_of_lt hbound]

theorem rsplitOnce_append (before : List Char) (h : c ∉ after) :
    rsplitOnce c (before ++ c :: after) = some (before, after) := by
  have hnone : ∀ s : List Char, c ∉ s → rsplitOnce c s = none := by
    intro s hs
    induction s with
    | nil => rfl
    | cons x s ih =>
      have hx : x ≠ c := fun heq => hs (heq ▸ mem_cons_self)
      simp only [rsplitOnce, ih fun hmem => hs (mem_cons_of_mem _ hmem), hx, if_false]
  induction before with
  | nil => simp [rsplitOnce, hnone after h]
  | cons x before ih => simp [rsplitOnce, ih]

theorem dot_notMem_ext (ext : Format) : '.' ∉ ext.spelled := by
  cases ext <;> decide

theorem stripStart_append (start s : List Char) : stripStart start (start ++ s) = some s := by
  simp [stripStart]

theorem decimal_isDigit (n : Nat) : (decimal n).all Char.isDigit :=
  all_eq_true.mpr fun _ hc => Nat.isDigit_of_mem_toDigits (by omega) (by omega) hc

theorem decimal_digits (n : Nat) : (!(decimal n).isEmpty && (decimal n).all Char.isDigit) := by
  have hne : decimal n ≠ [] := Nat.toDigits_ne_nil
  rwa [decimal_isDigit, Bool.and_true, Bool.not_eq_true', isEmpty_eq_false_iff]

/-! ## The names of the platform -/

/-- What the platform writes for a row: the file of a volume, the disks of a VM and its seed. -/
inductive Generated : Owner → List Char → Prop
  | volume {id : Id} (h : id < 2 ^ 128) (ext : Format) :
    Generated (.volume id) (FileName.volume id ext).spelled
  | disk {id : Id} {name : FileName} (hname : name.ofVm = some id) (h : id < 2 ^ 128) :
    Generated (.vm id) name.spelled
  | seed {id : Id} (h : id < 2 ^ 128) : Generated (.vm id) (uuidText id ++ '.' :: "iso".toList)

/-- With hyphens and in lower case. -/
def written (text : List Char) : Bool := text.length = 36 && text.all Hex.lower.contains

def isFormat (ext : List Char) : Bool := [Format.raw, .qcow2].any fun f => f.spelled = ext

def diskNumber (suffix : List Char) : Option (List Char) :=
  (stripStart "-disk".toList suffix).or (stripStart "-d".toList suffix)

/-- A root disk and a seed have no number, other disks one without leading zeros. -/
def ending (suffix ext : List Char) : Bool :=
  if suffix = [] then isFormat ext || ext = "iso".toList
  else isFormat ext && (diskNumber suffix).any fun n => n = decimal (Nat.ofDigitChars 10 n 0)

/-- A name with an id in it, which the platform writes in another way. -/
def tolerated (fileName : List Char) : Bool :=
  match rsplitOnce '.' fileName with
  | none => false
  | some (stem, ext) =>
    match stripStart "vol-".toList stem with
    | some rest => (parseUuid rest).isSome && !(written rest && isFormat ext)
    | none =>
      36 ≤ stem.length && (parseUuid (stem.take 36)).isSome &&
        (stem.drop 36 = [] || isDiskSuffix (stem.drop 36)) &&
        !(written (stem.take 36) && ending (stem.drop 36) ext)

theorem isFormat_iff : isFormat ext ↔ ∃ f : Format, f.spelled = ext := by
  simp only [isFormat, any_eq_true, decide_eq_true_eq]
  constructor
  · rintro ⟨f, -, h⟩
    exact ⟨f, h⟩
  · rintro ⟨f, h⟩
    exact ⟨f, by cases f <;> simp, h⟩

theorem all_intercalate {p : Char → Bool} {sep : Char} (hsep : p sep) :
    ∀ gs : List (List Char), ([sep].intercalate gs).all p = gs.flatten.all p
  | [] => rfl
  | [g] => by simp [intercalate]
  | g :: g' :: gs => by
    have ih := all_intercalate hsep (g' :: gs)
    simp only [intercalate, intersperse_cons_cons, flatten_cons, all_append] at ih ⊢
    simp [ih, hsep]

theorem written_uuidText (id : Id) : written (uuidText id) := by
  rw [written, length_uuidText, uuidText, all_intercalate (by decide), flatten_uuidGroups]
  refine all_eq_true.mpr fun c hc => ?_
  obtain ⟨d, hd, rfl⟩ := Hex.mem_digits hc
  exact contains_iff_mem.mpr (mem_cons_of_mem _ (mem_map_of_mem (mem_range.mpr hd)))

theorem diskNumber_disk (i : Nat) : diskNumber ("-disk".toList ++ decimal i) = some (decimal i) := by
  rw [diskNumber, stripStart_append, Option.some_or]

theorem diskNumber_added (n : Nat) : diskNumber ("-d".toList ++ decimal n) = some (decimal n) := by
  -- a digit comes where "-disk" has an 'i'
  have hnot : stripStart "-disk".toList ("-d".toList ++ decimal n) = none := by
    cases hd : decimal n with
    | nil => exact absurd hd Nat.toDigits_ne_nil
    | cons c cs =>
    have hc : c ≠ 'i' := by
      rintro rfl
      have hdigit := all_eq_true.mp (decimal_isDigit n) 'i' (hd ▸ mem_cons_self)
      revert hdigit
      decide
    simp [stripStart, hc.symm]
  rw [diskNumber, hnot, stripStart_append, Option.none_or]

theorem owner_stem (h : id < 2 ^ 128) (hsuffix : suffix = [] ∨ isDiskSuffix suffix)
    (hext : '.' ∉ ext) (hend : ending suffix ext) :
    owner (uuidText id ++ suffix ++ '.' :: ext) = some (.vm id) ∧
      tolerated (uuidText id ++ suffix ++ '.' :: ext) = false := by
  have hstrip : stripStart "vol-".toList (uuidText id ++ suffix) = none := by
    obtain ⟨rest, hrest⟩ : ∃ rest, uuidText id = Nat.digitChar (id / 16 ^ 31 % 16) :: rest :=
      ⟨_, rfl⟩
    simp [stripStart, hrest]
  have htake : (uuidText id ++ suffix).take 36 = uuidText id := take_left' (length_uuidText id)
  have hdrop : (uuidText id ++ suffix).drop 36 = suffix := drop_left' (length_uuidText id)
  have hlen : ¬ (uuidText id ++ suffix).length < 36 := by
    rw [length_append, length_uuidText]
    omega
  simp only [owner, tolerated, rsplitOnce_append _ hext, hstrip, hlen, if_false, htake,
    parseUuid_uuidText h, hdrop, hsuffix, if_true, written_uuidText, hend, Bool.and_self,
    Bool.not_true, Bool.and_false, and_self]

theorem owner_numbered {n : Nat} (h : id < 2 ^ 128) (hn : diskNumber suffix = some (decimal n))
    (ext : Format) : owner (uuidText id ++ suffix ++ '.' :: ext.spelled) = some (.vm id) ∧
      tolerated (uuidText id ++ suffix ++ '.' :: ext.spelled) = false := by
  have hdisk : isDiskSuffix suffix := by
    show (diskNumber suffix).any _
    rw [hn]
    exact decimal_digits n
  refine owner_stem h (.inr hdisk) (dot_notMem_ext ext) ?_
  have hne : suffix ≠ [] := by
    rintro rfl
    cases hn
  rw [ending, if_neg hne, hn]
  simp [isFormat_iff.mpr ⟨ext, rfl⟩, decimal, Nat.ofDigitChars_toDigits]

theorem Generated.owner (h : Generated x s) : owner s = some x ∧ tolerated s = false := by
  cases h with
  | @volume id h ext =>
    have hsplit : rsplitOnce '.' (FileName.volume id ext).spelled =
        some ("vol-".toList ++ uuidText id, ext.spelled) := rsplitOnce_append _ (dot_notMem_ext ext)
    simp only [Reclaim.owner, tolerated, hsplit, stripStart_append, parseUuid_uuidText h, Option.map_some,
      written_uuidText, isFormat_iff.mpr ⟨ext, rfl⟩, Bool.and_self, Bool.not_true, Bool.and_false,
      and_self]
  | @disk id name hname h =>
    cases name with
    | vmDisk vm i ext =>
      cases hname
      exact owner_numbered h (diskNumber_disk i) ext
    | vmRoot vm ext =>
      cases hname
      have hroot := owner_stem h (.inl rfl) (dot_notMem_ext ext)
        (Bool.or_eq_true_iff.mpr (.inl (isFormat_iff.mpr ⟨ext, rfl⟩)))
      rwa [append_nil] at hroot
    | vmAdded vm n ext =>
      cases hname
      exact owner_numbered h (diskNumber_added n) ext
    | _ => cases hname
  | seed h =>
    have hseed := @owner_stem _ "iso".toList [] h (.inl rfl) (by decide) rfl
    rwa [append_nil] at hseed

/-! ## Reading any name -/

theorem eq_of_rsplitOnce {before : List Char}
    (h : rsplitOnce c s = some (before, after)) : s = before ++ c :: after := by
  induction s generalizing before with
  | nil => cases h
  | cons x s ih =>
    rw [rsplitOnce] at h
    split at h
    · next hs =>
      cases h
      rw [ih hs, cons_append]
    · obtain ⟨rfl, ⟨⟩⟩ := Option.ite_none_right_eq_some.mp h
      rfl

theorem eq_of_stripStart {start rest : List Char} (h : stripStart start s = some rest) :
    s = start ++ rest := by
  obtain ⟨hstart, ⟨⟩⟩ := Option.ite_none_right_eq_some.mp h
  replace hstart := isPrefixOf_iff_prefix.mp hstart
  exact (prefix_iff_eq_append.mp hstart).symm

theorem uuidText_of_written (hid : parseUuid text = some id) (h : written text) :
    text = uuidText id ∧ id < 2 ^ 128 := by
  obtain ⟨hlen, hlower⟩ := Bool.and_eq_true_iff.mp h
  replace hlen := of_decide_eq_true hlen
  rw [parseUuid, if_neg (by omega), if_pos hlen, parseHyphenated] at hid
  obtain ⟨hgroups, hread⟩ := Option.ite_none_right_eq_some.mp hid
  simp only [map_eq_cons_iff, map_eq_nil_iff] at hgroups
  obtain ⟨a, _, hsplit, ha, b, _, rfl, hb, c, _, rfl, hc, d, _, rfl, hd, e, _, rfl, he, rfl⟩ :=
    hgroups
  have htext : ['-'].intercalate (text.splitOn '-') = text := intercalate_splitOn '-'
  rw [hsplit] at htext hread
  rw [← htext, all_intercalate (by decide)] at hlower
  have hcount : [a, b, c, d, e].flatten.length = 32 := by simp [ha, hb, hc, hd, he]
  obtain ⟨hhigh, hdigits⟩ := Hex.digits_of_readDigits hread hlower
  rw [hcount] at hhigh hdigits
  refine ⟨?_, Nat.lt_of_div_eq_zero (by decide) hhigh.symm⟩
  rw [uuidText, ← hdigits, ← htext]
  simp [uuidGroups, drop_append, ha, hb, hc, hd, drop_of_length_le]

theorem generated_stem (h : id < 2 ^ 128) (hend : ending suffix ext) :
    Generated (.vm id) (uuidText id ++ suffix ++ '.' :: ext) := by
  rw [ending] at hend
  split at hend
  · next hnil =>
    rw [hnil, append_nil]
    rcases Bool.or_eq_true_iff.mp hend with hext | hext
    · obtain ⟨f, rfl⟩ := isFormat_iff.mp hext
      exact @Generated.disk id (.vmRoot id f) rfl h
    · rw [of_decide_eq_true hext]
      exact .seed h
  · obtain ⟨hext, hnumber⟩ := Bool.and_eq_true_iff.mp hend
    obtain ⟨f, rfl⟩ := isFormat_iff.mp hext
    obtain ⟨n, hn, hplain⟩ := (Option.any_eq_true _ _).mp hnumber
    rw [of_decide_eq_true hplain] at hn
    rcases Option.or_eq_some_iff.mp hn with hn | ⟨-, hn⟩
    · rw [eq_of_stripStart hn]
      exact @Generated.disk id (.vmDisk id _ f) rfl h
    · rw [eq_of_stripStart hn]
      exact @Generated.disk id (.vmAdded id _ f) rfl h

/-- What is attributed is the platform's, unless it is tolerated. -/
theorem owner_cases (s : List Char) : (owner s = none ∧ tolerated s = false) ∨
    ∃ x, owner s = some x ∧ (tolerated s = false → Generated x s) := by
  cases hsplit : rsplitOnce '.' s with
  | none => simp [owner, tolerated, hsplit]
  | some p =>
  obtain ⟨stem, ext⟩ := p
  simp only [owner, tolerated, hsplit]
  cases hstrip : stripStart "vol-".toList stem with
  | some rest =>
    cases hid : parseUuid rest with
    | none => simp [hid]
    | some id =>
    refine .inr ⟨.volume id, by simp [hid], fun h => ?_⟩
    have hwritten : written rest ∧ isFormat ext := by simpa [hid] using h
    obtain ⟨rfl, hlt⟩ := uuidText_of_written hid hwritten.1
    obtain ⟨f, rfl⟩ := isFormat_iff.mp hwritten.2
    rw [eq_of_rsplitOnce hsplit, eq_of_stripStart hstrip]
    exact .volume hlt f
  | none =>
    by_cases hlen : stem.length < 36
    · simp [hlen]
    cases hid : parseUuid (stem.take 36) with
    | none => simp
    | some id =>
    by_cases hsuffix : stem.drop 36 = [] ∨ isDiskSuffix (stem.drop 36)
    · refine .inr ⟨.vm id, by simp only [hlen, hsuffix, if_true, if_false], fun h => ?_⟩
      have hwritten : written (stem.take 36) ∧ ending (stem.drop 36) ext := by simp_all
      obtain ⟨htext, hlt⟩ := uuidText_of_written hid hwritten.1
      have hgenerated := generated_stem hlt hwritten.2
      rwa [← htext, take_append_drop, ← eq_of_rsplitOnce hsplit] at hgenerated
    · simp_all

/-- **Attribution is exact** for all names but those that are tolerated: an owner is found exactly if
the platform writes the name for it. -/
theorem owner_exact_iff (s : List Char) :
    (∀ x, owner s = some x ↔ Generated x s) ↔ tolerated s = false := by
  constructor
  · intro h
    rcases owner_cases s with ⟨-, hs⟩ | ⟨x, hx, -⟩
    · exact hs
    · exact ((h x).mp hx).owner.2
  · intro hs x
    refine ⟨fun hx => ?_, fun hx => hx.owner.1⟩
    rcases owner_cases s with ⟨hnone, -⟩ | ⟨y, hy, hgenerated⟩
    · cases hx.symm.trans hnone
    · cases hx.symm.trans hy
      exact hgenerated hs

/-- **A file of somebody else is attributed**: a text with an id for its name goes for a disk of the
VM. -/
theorem text_attributed :
    owner "00000000-0000-0000-0000-000000000007.txt".toList = some (.vm 7) ∧
      ¬ ∃ x, Generated x "00000000-0000-0000-0000-000000000007.txt".toList := by
  refine ⟨by decide, ?_⟩
  rintro ⟨x, h⟩
  have hfalse := h.owner.2
  revert hfalse
  decide

end VQuasar.Reclaim

namespace VQuasar.Tenancy

open Reclaim

theorem HostPath.owner_join (dir : HostPath) (name : FileName) :
    (dir.join name).owner = Reclaim.owner name.spelled := by
  simp [HostPath.owner, HostPath.join, Component.spelled]

theorem HostPath.Same.owner_eq {p q : HostPath} (h : p.Same q) : p.owner = q.owner := by
  rw [HostPath.owner, h.2]
  rfl

end VQuasar.Tenancy
