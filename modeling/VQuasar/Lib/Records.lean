import Mathlib.Data.List.Basic

/-!
# Records in lines of text

A line holds fields between separators, up to the first field that begins with a key; what follows
the key is the tail of the record, separators and all.  A file is such lines between line ends.

What is written is read back as long as no field holds a separator or begins with the key, and no
line holds a line end (`parse_text`, `parseFile_text`).  Whatever the text is, no field that is read
holds one (`mem_parseFile_fields`).
-/

namespace VQuasar.Records

open List Option

variable {α : Type} {sep c : α} {pieces fields : List (List α)} {tail xs : List α}

/-- What is read of a line; there is no tail without the key. -/
structure Record (α : Type) where
  fields : List (List α)
  tail : Option (List α)
deriving DecidableEq, Repr

section

variable [BEq α] (sep : α) (key : List α)

/-- The tail of a line, from the fields that begin with the key on. -/
def tailOf : List (List α) → Option (List α)
  | [] => none
  | f :: fs => some (([sep].intercalate (f :: fs)).drop key.length)

def parse (line : List α) : Record α :=
  match line.splitOn sep with
  | [] => ⟨[], none⟩
  | f :: fs => ⟨f :: fs.takeWhile fun g => !key.isPrefixOf g,
      tailOf sep key (fs.dropWhile fun g => !key.isPrefixOf g)⟩

def parseFile (lineEnd : α) (text : List α) : List (Record α) :=
  (text.splitOn lineEnd).map (parse sep key)

end

/-- A line with these fields and this tail. -/
def text (sep : α) (key : List α) (fields : List (List α)) (tail : List α) : List α :=
  [sep].intercalate fields ++ sep :: (key ++ tail)

theorem mem_join (h : c ∈ [sep].intercalate pieces) : c = sep ∨ ∃ p ∈ pieces, c ∈ p := by
  induction pieces with
  | nil => cases h
  | cons p ps ih =>
    cases ps with
    | nil =>
      rw [intercalate_singleton] at h
      exact Or.inr ⟨p, mem_cons_self, h⟩
    | cons q qs =>
      rw [intercalate_cons_cons, append_assoc, mem_append, mem_append,
        mem_singleton] at h
      rcases h with h | h | h
      · exact Or.inr ⟨p, mem_cons_self, h⟩
      · exact Or.inl h
      · rcases ih h with heq | ⟨r, hr, hc⟩
        · exact Or.inl heq
        · exact Or.inr ⟨r, mem_cons_of_mem p hr, hc⟩

theorem not_mem_text {key : List α} (hsep : c ≠ sep)
    (hkey : c ∉ key) (hfields : ∀ f ∈ fields, c ∉ f) (htail : c ∉ tail) :
    c ∉ text sep key fields tail := by
  intro h
  rw [text, mem_append, mem_cons, mem_append] at h
  rcases h with h | h | h | h
  · rcases mem_join h with heq | ⟨f, hf, hc⟩
    · exact hsep heq
    · exact hfields f hf hc
  · exact hsep h
  · exact hkey h
  · exact htail h

variable [BEq α] [LawfulBEq α] {sep lineEnd : α} {key : List α}

theorem mem_splitOn {piece : List α} (h : piece ∈ xs.splitOn sep) (hc : c ∈ piece) :
    c ∈ xs ∧ c ≠ sep := by
  induction xs generalizing piece with
  | nil =>
    rw [splitOn_nil, mem_singleton] at h
    subst h
    cases hc
  | cons x xs ih =>
    rw [List.splitOn, splitOnP_cons_eq_if_modifyHead] at h
    by_cases hx : (x == sep) = true
    · rw [if_pos hx] at h
      rcases mem_cons.mp h with rfl | h
      · cases hc
      · exact ⟨mem_cons_of_mem x (ih h hc).1, (ih h hc).2⟩
    · -- the first piece of the rest begins with `x`
      rw [if_neg hx] at h
      cases hsplit : xs.splitOnP fun y => y == sep with
      | nil => simp [hsplit] at h
      | cons p ps =>
      rw [hsplit, modifyHead_cons] at h
      rw [List.splitOn, hsplit] at ih
      rcases mem_cons.mp h with rfl | h
      · rcases mem_cons.mp hc with rfl | hc
        · exact ⟨mem_cons_self, fun heq => hx (beq_iff_eq.mpr heq)⟩
        · exact ⟨mem_cons_of_mem x (ih mem_cons_self hc).1, (ih mem_cons_self hc).2⟩
      · have hrest := ih (mem_cons_of_mem p h) hc
        exact ⟨mem_cons_of_mem x hrest.1, hrest.2⟩

theorem splitOn_join (hne : pieces ≠ []) (h : ∀ p ∈ pieces, sep ∉ p) (rest : List α) :
    ([sep].intercalate pieces ++ sep :: rest).splitOn sep = pieces ++ rest.splitOn sep := by
  have hjoin := splitOn_intercalate sep h hne
  simp only [List.splitOn] at hjoin ⊢
  rw [splitOnP_append_cons (p := fun x => x == sep) _ _ (beq_self_eq_true sep), hjoin]

theorem splitOn_append (h : sep ∉ xs) (ys : List α) :
    ∃ p ps, (xs ++ ys).splitOn sep = (xs ++ p) :: ps := by
  induction xs with
  | nil =>
    cases hsplit : ys.splitOn sep with
    | nil => exact absurd hsplit (splitOnP_ne_nil _ _)
    | cons p ps => exact ⟨p, ps, hsplit⟩
  | cons x xs ih =>
    obtain ⟨p, ps, hps⟩ := ih fun hmem => h (mem_cons_of_mem x hmem)
    have hx : ¬ (x == sep) := fun heq => h (eq_of_beq heq ▸ mem_cons_self)
    refine ⟨p, ps, ?_⟩
    rw [cons_append, List.splitOn, splitOnP_cons_eq_if_modifyHead, if_neg hx]
    rw [List.splitOn] at hps
    rw [hps]
    rfl

/-- **A record is read back** when its fields hold no separator and do not begin with the key. -/
theorem parse_text (hne : fields ≠ []) (hsep : ∀ f ∈ fields, sep ∉ f) (hkey : sep ∉ key)
    (hkeys : ∀ f ∈ fields, key.isPrefixOf f = false) :
    parse sep key (text sep key fields tail) = ⟨fields, some tail⟩ := by
  obtain ⟨p, ps, hps⟩ := splitOn_append hkey tail
  have htail : [sep].intercalate ((key ++ p) :: ps) = key ++ tail := by
    rw [← hps, intercalate_splitOn]
  unfold parse text
  rw [splitOn_join hne hsep, hps]
  cases fields with
  | nil => exact absurd rfl hne
  | cons f fs =>
  have hfs : ∀ g ∈ fs, (!key.isPrefixOf g) := fun g hg => by
    rw [hkeys g (mem_cons_of_mem f hg)]
    rfl
  have hp : (!key.isPrefixOf (key ++ p)) = false := by simp
  simp only [cons_append, takeWhile_append_of_pos hfs,
    dropWhile_append_of_pos hfs, takeWhile_cons, dropWhile_cons, hp,
    Bool.false_eq_true, if_false, append_nil, tailOf, htail, drop_left]

theorem parseFile_text {lines : List (List α)} (hne : lines ≠ []) (h : ∀ l ∈ lines, lineEnd ∉ l) :
    parseFile sep key lineEnd ([lineEnd].intercalate lines) = lines.map (parse sep key) := by
  rw [parseFile, splitOn_intercalate lineEnd h hne]

/-- Whatever is read, its fields hold neither a separator nor a line end. -/
theorem mem_parseFile_fields {input : List α} {r : Record α}
    (hr : r ∈ parseFile sep key lineEnd input) {f : List α} (hf : f ∈ r.fields) :
    sep ∉ f ∧ lineEnd ∉ f := by
  obtain ⟨line, hline, rfl⟩ := mem_map.mp hr
  have hpiece : f ∈ line.splitOn sep := by
    unfold parse at hf
    cases hsplit : line.splitOn sep with
    | nil => simp [hsplit] at hf
    | cons g gs =>
    rw [hsplit] at hf
    rcases mem_cons.mp hf with rfl | hf
    · exact mem_cons_self
    · exact mem_cons_of_mem g (takeWhile_subset _ hf)
  constructor
  · intro hmem
    exact (mem_splitOn hpiece hmem).2 rfl
  · intro hmem
    exact (mem_splitOn hline (mem_splitOn hpiece hmem).1).2 rfl

end VQuasar.Records
