/-
  GoBindings/Proofs/Text.lean
  ===========================
  **Texts taken apart.**

  Facts about cutting texts, each in terms of putting them together again: a fixed
  beginning or ending is cut off exactly if the text is it with something behind or
  in front of it (`dropStart?_eq_some_iff`, `dropEnd?_eq_some_iff`), the first separator is
  the one with none in front of it (`cutFirst?_eq_some_iff`), a directory ends at the
  last separator (`append_inj_of_closedBy`), and what is dropped at both ends can be put
  back around a text that has none of it at its own ends (`dropBothWhile_append`).

  The lines of a text that was put together from lines are those lines
  (`lines_join`). That needs every line to keep to itself (`OneLine`).
-/
import GoBindings.Text.Cut
import Mathlib.Data.List.Nodup
import Mathlib.Data.List.TakeWhile

namespace GoBindings.Text

variable {a b s start rest : String}

/-! ### Fixed beginnings and endings -/

theorem dropStart?_eq_some_iff : dropStart? start s = some rest ↔ s = start ++ rest := by
  simp only [dropStart?, Option.map_eq_some_iff, List.isPrefixOf?_eq_some_iff_append_eq]
  constructor
  · rintro ⟨cs, hcs, rfl⟩
    rw [← String.toList_inj, String.toList_append, String.toList_ofList, hcs]
  · rintro rfl
    exact ⟨rest.toList, String.toList_append.symm, String.ofList_toList⟩

@[simp] theorem dropStart?_append (start rest : String) :
    dropStart? start (start ++ rest) = some rest :=
  dropStart?_eq_some_iff.mpr rfl

theorem isSome_dropStart?_append (h : (dropStart? start a).isSome) (b : String) :
    (dropStart? start (a ++ b)).isSome := by
  obtain ⟨rest, hrest⟩ := Option.isSome_iff_exists.mp h
  rw [dropStart?_eq_some_iff.mp hrest, String.append_assoc, dropStart?_append]
  rfl

theorem dropStart?_eq_none_iff : dropStart? start s = none ↔ ∀ rest, s ≠ start ++ rest := by
  simp only [Option.eq_none_iff_forall_ne_some, ne_eq, dropStart?_eq_some_iff]

theorem dropEnd?_eq_some_iff {ending : String} :
    dropEnd? ending s = some rest ↔ s = rest ++ ending := by
  simp only [dropEnd?, Option.map_eq_some_iff, List.isSuffixOf?_eq_some_iff_append_eq]
  constructor
  · rintro ⟨cs, hcs, rfl⟩
    rw [← String.toList_inj, String.toList_append, String.toList_ofList, hcs]
  · rintro rfl
    exact ⟨rest.toList, String.toList_append.symm, String.ofList_toList⟩

/-! ### Lines -/

/-- The text stays on one line. -/
def OneLine (s : String) : Prop := '\n' ∉ s.toList

instance (s : String) : Decidable (OneLine s) := inferInstanceAs (Decidable (_ ∉ _))

@[simp] theorem oneLine_append : OneLine (a ++ b) ↔ OneLine a ∧ OneLine b := by
  simp only [OneLine, String.toList_append, List.mem_append, not_or]

theorem oneLine_ofList {cs : List Char} (h : cs.contains '\n' = false) :
    OneLine (String.ofList cs) := by
  rwa [OneLine, String.toList_ofList, ← List.contains_iff_mem, Bool.not_eq_true]

/-- A line without the carriage return that its end may start with. -/
def dropReturn (line : String) : String := (dropEnd? "\r" line).getD line

/-- A carriage return at the end of a line is found in the last piece of the line. -/
theorem dropReturn_append (hb : b ≠ "") : dropReturn (a ++ b) = a ++ dropReturn b := by
  unfold dropReturn
  cases hdrop : dropEnd? "\r" b with
  | some rest =>
    obtain rfl := dropEnd?_eq_some_iff.mp hdrop
    have hwhole : dropEnd? "\r" (a ++ (rest ++ "\r")) = some (a ++ rest) :=
      dropEnd?_eq_some_iff.mpr (String.append_assoc ..).symm
    rw [hwhole, Option.getD_some, Option.getD_some]
  | none =>
    have hwhole : dropEnd? "\r" (a ++ b) = none := by
      rw [Option.eq_none_iff_forall_ne_some]
      intro rest hrest
      -- what is not empty and stands behind `a` has the last character of the whole
      have hreturn : "\r".toList <:+ (a ++ b).toList :=
        ⟨rest.toList, by rw [dropEnd?_eq_some_iff.mp hrest, String.toList_append]⟩
      have hpiece : b.toList <:+ (a ++ b).toList := ⟨a.toList, String.toList_append.symm⟩
      have hlength : "\r".toList.length ≤ b.toList.length :=
        List.length_pos_of_ne_nil fun hnil => hb (String.toList_eq_nil_iff.mp hnil)
      obtain ⟨front, hfront⟩ := List.suffix_of_suffix_length_le hreturn hpiece hlength
      have hb' : b = String.ofList front ++ "\r" := by
        rw [← String.toList_inj, String.toList_append, String.toList_ofList, hfront]
      rw [dropEnd?_eq_some_iff.mpr hb'] at hdrop
      exact nomatch hdrop
    rw [hwhole, Option.getD_none, Option.getD_none]

theorem head?_dropReturn {c : Char} (h : (dropReturn s).toList.head? = some c) :
    s.toList.head? = some c := by
  unfold dropReturn at h
  cases hdrop : dropEnd? "\r" s with
  | none => rwa [hdrop] at h
  | some rest =>
    rw [hdrop, Option.getD_some] at h
    rw [dropEnd?_eq_some_iff.mp hdrop, String.toList_append, List.head?_append, h, Option.some_or]

/-- The lines of a text. A line ends in a line feed, which a carriage return may precede;
    the last one may do without. -/
def lines (s : String) : List String :=
  (split '\n' s).dropLast.map dropReturn
    ++ ((split '\n' s).getLast?.filter fun line => !line.isEmpty).toList

/-- The text that has the lines one below the other. -/
def unlines (ls : List String) : String := String.join (ls.map (· ++ "\n"))

theorem unlines_append (ls ms : List String) : unlines (ls ++ ms) = unlines ls ++ unlines ms := by
  rw [← String.toList_inj, String.toList_append]
  simp only [unlines, String.toList_join, List.map_append, List.flatMap_append]

/-- Each line is cut on its own. -/
theorem split_unlines (ls : List String) :
    split '\n' (unlines ls) = ls.flatMap (split '\n') ++ [""] := by
  induction ls with
  | nil => rfl
  | cons l ls ih =>
    have hend : "\n".toList = ['\n'] := rfl
    simp only [split, unlines, String.toList_join] at ih ⊢
    rw [List.map_cons, List.flatMap_cons, String.toList_append, List.append_assoc, hend,
      List.singleton_append, List.splitOn_append_cons_self, List.map_append, ih,
      List.flatMap_cons, List.append_assoc]
    rfl

theorem not_mem_of_mem_splitOn {sep : Char} {cs piece : List Char} (h : piece ∈ cs.splitOn sep) :
    sep ∉ piece := by
  induction cs generalizing piece with
  | nil =>
    rw [List.splitOn_nil, List.mem_singleton] at h
    exact h ▸ List.not_mem_nil
  | cons c rest ih =>
    rw [List.splitOn_cons_eq_if_modifyHead] at h
    split_ifs at h with hc
    · rcases List.mem_cons.mp h with rfl | h
      · exact List.not_mem_nil
      · exact ih h
    · cases hrest : rest.splitOn sep with
      | nil => exact absurd hrest (List.splitOn_ne_nil _ _)
      | cons first others =>
        rw [hrest, List.modifyHead_cons] at h
        rcases List.mem_cons.mp h with rfl | h
        · have hfirst : sep ∉ first := ih (hrest ▸ List.mem_cons_self)
          have hne : sep ≠ c := fun heq => hc (beq_iff_eq.mpr heq.symm)
          exact List.not_mem_cons_of_ne_of_not_mem hne hfirst
        · exact ih (hrest ▸ List.mem_cons_of_mem _ h)

theorem not_mem_of_mem_split {sep : Char} {piece : String} (h : piece ∈ split sep s) :
    sep ∉ piece.toList := by
  obtain ⟨cs, hcs, rfl⟩ := List.mem_map.mp h
  rw [String.toList_ofList]
  exact not_mem_of_mem_splitOn hcs

theorem split_of_not_mem {sep : Char} (h : sep ∉ s.toList) : split sep s = [s] := by
  rw [split, List.splitOn_eq_singleton h, List.map_singleton, String.ofList_toList]

theorem split_of_oneLine (h : OneLine s) : split '\n' s = [s] := split_of_not_mem h

theorem split_append {sep : Char} (a b : String) :
    split sep (a ++ String.singleton sep ++ b) = split sep a ++ split sep b := by
  simp only [split, String.toList_append, String.toList_singleton, List.append_assoc,
    List.singleton_append, List.splitOn_append_cons_self, List.map_append]

/-- Lines that are written one below the other are found again. -/
theorem split_join {ls : List String} (h : ∀ l ∈ ls, OneLine l) :
    split '\n' (String.join (ls.map (· ++ "\n"))) = ls ++ [""] := by
  have hlines : ls.flatMap (split '\n') = ls := by
    rw [List.flatMap_congr fun l hl => split_of_oneLine (h l hl), List.flatMap_singleton']
  have hsplit := split_unlines ls
  rwa [hlines] at hsplit

theorem lines_join {ls : List String} (h : ∀ l ∈ ls, OneLine l) :
    lines (String.join (ls.map (· ++ "\n"))) = ls.map dropReturn := by
  simp [lines, split_join h]

/-- Lists of texts are the same if they have the same characters text by text, however the
    texts are put together. -/
theorem list_ext_toList {ls ms : List String} :
    ls = ms ↔ ls.map String.toList = ms.map String.toList :=
  (List.map_injective_iff.mpr fun _ _ h => String.toList_injective h).eq_iff.symm

/-! ### The first separator -/

theorem takeWhile_append_cons {sep : Char} {front : List Char} (h : sep ∉ front)
    (rest : List Char) : (front ++ sep :: rest).takeWhile (· != sep) = front := by
  have hkept : ∀ c ∈ front, (c != sep) = true := by
    intro c hc
    rw [bne_iff_ne]
    rintro rfl
    exact h hc
  rw [List.takeWhile_append_of_pos hkept, List.takeWhile_cons]
  simp

theorem dropWhile_append_cons {sep : Char} {front : List Char} (h : sep ∉ front)
    (rest : List Char) : (front ++ sep :: rest).dropWhile (· != sep) = sep :: rest := by
  have hwhole := List.takeWhile_append_dropWhile (p := (· != sep)) (l := front ++ sep :: rest)
  rw [takeWhile_append_cons h] at hwhole
  exact List.append_cancel_left hwhole

/-- Two lists that are cut at their first separator are equal piece by piece. -/
theorem append_cons_inj {sep : Char} {front front' rest rest' : List Char} (h : sep ∉ front)
    (h' : sep ∉ front') (heq : front ++ sep :: rest = front' ++ sep :: rest') :
    front = front' ∧ rest = rest' := by
  constructor
  · rw [← takeWhile_append_cons h rest, heq, takeWhile_append_cons h']
  · have hdrop := dropWhile_append_cons h rest
    rw [heq, dropWhile_append_cons h'] at hdrop
    exact (List.cons.inj hdrop).2.symm

theorem cutFirst?_append {sep : Char} {front : String} (h : sep ∉ front.toList) (rest : String) :
    cutFirst? sep (front ++ String.singleton sep ++ rest) = some (front, rest) := by
  unfold cutFirst?
  rw [String.toList_append, String.toList_append, String.toList_singleton, List.append_assoc,
    List.singleton_append, dropWhile_append_cons h, takeWhile_append_cons h, String.ofList_toList]
  exact congrArg (fun after => some (front, after)) (String.ofList_toList)

theorem cutFirst?_eq_none_iff {sep : Char} : cutFirst? sep s = none ↔ sep ∉ s.toList := by
  constructor
  · intro h hmem
    obtain ⟨before, after, hlist, hbefore⟩ := List.eq_append_cons_of_mem hmem
    unfold cutFirst? at h
    rw [hlist, dropWhile_append_cons hbefore] at h
    exact nomatch h
  · intro h
    have hall : ∀ c ∈ s.toList, (c != sep) = true := by
      intro c hc
      rw [bne_iff_ne]
      rintro rfl
      exact h hc
    unfold cutFirst?
    rw [List.dropWhile_eq_nil_iff.mpr hall]

theorem cutFirst?_eq_some_iff {sep : Char} {before after : String} :
    cutFirst? sep s = some (before, after) ↔
      s = before ++ String.singleton sep ++ after ∧ sep ∉ before.toList := by
  constructor
  · intro h
    have hmem : sep ∈ s.toList := by
      by_contra hnot
      exact nomatch (cutFirst?_eq_none_iff.mpr hnot).symm.trans h
    obtain ⟨front, rest, hlist, hfront⟩ := List.eq_append_cons_of_mem hmem
    have hs : s = String.ofList front ++ String.singleton sep ++ String.ofList rest := by
      rw [← String.toList_inj, hlist]
      simp [String.toList_append]
    have hfront' : sep ∉ (String.ofList front).toList := by rwa [String.toList_ofList]
    rw [hs, cutFirst?_append hfront'] at h
    obtain ⟨rfl, rfl⟩ := Prod.mk.inj (Option.some.inj h)
    exact ⟨hs, hfront'⟩
  · rintro ⟨rfl, hbefore⟩
    exact cutFirst?_append hbefore after

/-! ### The last separator -/

/-- The text is empty or ends in the separator. -/
def ClosedBy (sep : Char) (s : String) : Prop :=
  s = "" ∨ ∃ front, s = front ++ String.singleton sep

theorem takeWhile_reverse_append {sep : Char} (hb : sep ∉ b.toList) (ha : ClosedBy sep a) :
    ((a ++ b).toList.reverse.takeWhile (· != sep)) = b.toList.reverse := by
  have hpiece : ∀ c ∈ b.toList.reverse, (c != sep) = true := by
    intro c hc
    simp only [bne_iff_ne, ne_eq]
    rintro rfl
    exact hb (List.mem_reverse.mp hc)
  rw [String.toList_append, List.reverse_append, List.takeWhile_append_of_pos hpiece]
  rcases ha with rfl | ⟨front, rfl⟩
  · simp
  · simp

/-- Two texts that are cut at their last separator are equal piece by piece. -/
theorem append_inj_of_closedBy {sep : Char} {a' b' : String} (hb : sep ∉ b.toList)
    (hb' : sep ∉ b'.toList) (ha : ClosedBy sep a) (ha' : ClosedBy sep a')
    (h : a ++ b = a' ++ b') : a = a' ∧ b = b' := by
  have hpiece : b = b' := by
    have hrev := takeWhile_reverse_append hb ha
    rw [h, takeWhile_reverse_append hb' ha'] at hrev
    exact String.toList_inj.mp (List.reverse_injective hrev.symm)
  subst hpiece
  exact ⟨(String.append_left_inj b).mp h, rfl⟩

/-- The last separator cuts a text into what it closes and a piece without it. -/
theorem cutLast?_eq_some {sep : Char} {front piece : String}
    (h : cutLast? sep s = some (front, piece)) :
    s = front ++ String.singleton sep ++ piece ∧ sep ∉ piece.toList := by
  have hwhole := List.takeWhile_append_dropWhile (p := (· != sep)) (l := s.toList.reverse)
  have hpiece : sep ∉ s.toList.reverse.takeWhile (· != sep) := fun hmem => by
    simpa using List.mem_takeWhile_imp hmem
  unfold cutLast? at h
  split at h
  case h_1 => exact nomatch h
  case h_2 c before hrest =>
    obtain ⟨rfl, rfl⟩ := Prod.mk.inj (Option.some.inj h)
    have hc : c = sep := by
      have hhead := List.head_dropWhile_not (p := (· != sep)) (l := s.toList.reverse)
      simpa [hrest] using hhead
    subst hc
    rw [hrest] at hwhole
    refine ⟨?_, by simpa using hpiece⟩
    rw [← String.toList_inj, ← List.reverse_inj]
    simp only [String.toList_append, String.toList_ofList, String.toList_singleton,
      List.reverse_append, List.reverse_reverse, List.append_assoc]
    exact hwhole.symm

theorem cutLast?_eq_none {sep : Char} (h : cutLast? sep s = none) : sep ∉ s.toList := by
  unfold cutLast? at h
  split at h
  case h_1 hrest =>
    intro hmem
    have hkeep := List.dropWhile_eq_nil_iff.mp hrest sep (List.mem_reverse.mpr hmem)
    simp at hkeep
  case h_2 => exact nomatch h

/-! ### Both ends -/

section Ends

variable {p : Char → Bool} {t before after front : String}

/-- Neither the first nor the last character satisfies `p`. -/
structure Bare (p : Char → Bool) (s : String) : Prop where
  first : ∀ c ∈ s.toList.head?, p c = false
  last : ∀ c ∈ s.toList.getLast?, p c = false

theorem Bare.append (ha : Bare p a) (hb : Bare p b) (hane : a ≠ "") (hbne : b ≠ "")
    (between : String) : Bare p (a ++ between ++ b) := by
  constructor
  · intro c hc
    apply ha.first
    rwa [String.toList_append, String.toList_append, List.append_assoc,
      List.head?_append_of_ne_nil _ (mt String.toList_eq_nil_iff.mp hane)] at hc
  · intro c hc
    apply hb.last
    rwa [String.toList_append,
      List.getLast?_append_of_ne_nil _ (mt String.toList_eq_nil_iff.mp hbne)] at hc

theorem toList_dropBothWhile (p : Char → Bool) (s : String) :
    (dropBothWhile p s).toList = ((s.toList.dropWhile p).reverse.dropWhile p).reverse := by
  simp only [dropBothWhile, dropEndWhile, String.toList_ofList]

theorem eq_false_of_mem_head?_dropWhile {cs : List Char} {c : Char}
    (hc : c ∈ (cs.dropWhile p).head?) : p c = false := by
  have hhead := List.head?_dropWhile_not p cs
  rw [Option.mem_def.mp hc] at hhead
  exact hhead

theorem dropWhile_append_of_head? {cs ds : List Char} (hcs : ∀ c ∈ cs, p c)
    (hds : ∀ c ∈ ds.head?, p c = false) : (cs ++ ds).dropWhile p = ds := by
  rw [List.dropWhile_append_of_pos hcs]
  cases ds with
  | nil => rfl
  | cons c rest => exact List.dropWhile_cons_of_neg (by simpa using hds c rfl)

theorem bare_dropBothWhile (p : Char → Bool) (s : String) : Bare p (dropBothWhile p s) := by
  have hends := toList_dropBothWhile p s
  constructor
  · -- what is dropped at the end leaves the beginning as it was
    have hprefix : (dropBothWhile p s).toList <+: s.toList.dropWhile p := by
      rw [hends, ← List.reverse_suffix, List.reverse_reverse]
      exact List.dropWhile_suffix p
    intro c hc
    obtain ⟨rest, hrest⟩ := hprefix
    have hfirst : c ∈ (s.toList.dropWhile p).head? := by
      rw [← hrest, List.head?_append, Option.mem_def.mp hc]
      rfl
    exact eq_false_of_mem_head?_dropWhile hfirst
  · intro c hc
    rw [hends, List.getLast?_reverse] at hc
    exact eq_false_of_mem_head?_dropWhile hc

theorem exists_append_dropBothWhile (p : Char → Bool) (s : String) :
    ∃ before after, (∀ c ∈ before.toList, p c) ∧ (∀ c ∈ after.toList, p c) ∧
      s = before ++ dropBothWhile p s ++ after := by
  refine ⟨String.ofList (s.toList.takeWhile p),
    String.ofList ((s.toList.dropWhile p).reverse.takeWhile p).reverse, ?_, ?_, ?_⟩
  · intro c hc
    rw [String.toList_ofList] at hc
    exact List.mem_takeWhile_imp hc
  · intro c hc
    rw [String.toList_ofList, List.mem_reverse] at hc
    exact List.mem_takeWhile_imp hc
  · rw [← String.toList_inj]
    simp only [String.toList_append, String.toList_ofList, toList_dropBothWhile]
    rw [List.append_assoc, ← List.reverse_append, List.takeWhile_append_dropWhile,
      List.reverse_reverse, List.takeWhile_append_dropWhile]

theorem dropBothWhile_append (hbefore : ∀ c ∈ before.toList, p c)
    (hafter : ∀ c ∈ after.toList, p c) (h : Bare p t) :
    dropBothWhile p (before ++ t ++ after) = t := by
  rw [← String.toList_inj, toList_dropBothWhile, String.toList_append, String.toList_append,
    List.append_assoc]
  cases ht : t.toList with
  | nil =>
    have hall : ∀ c ∈ before.toList ++ ([] ++ after.toList), p c := by
      rw [List.nil_append, List.forall_mem_append]
      exact ⟨hbefore, hafter⟩
    rw [List.dropWhile_eq_nil_iff.mpr hall]
    rfl
  | cons c rest =>
    obtain ⟨hfirst, hlast⟩ := h
    rw [ht] at hfirst hlast
    have hfront : (before.toList ++ (c :: rest ++ after.toList)).dropWhile p =
        c :: rest ++ after.toList := dropWhile_append_of_head? hbefore hfirst
    rw [hfront, List.reverse_append, dropWhile_append_of_head?, List.reverse_reverse]
    · intro d hd
      exact hafter d (List.mem_reverse.mp hd)
    · rwa [List.head?_reverse]

/-- What stands in front of a text is kept if it is bare itself, and the text loses at its end
    what it would lose alone. -/
theorem exists_dropBothWhile_append (hne : front ≠ "") (h : Bare p front) (s : String) :
    ∃ rest, dropBothWhile p (front ++ s) = front ++ rest ∧
      dropBothWhile p rest = dropBothWhile p s := by
  obtain ⟨before, after, hbefore, hafter, hs⟩ := exists_append_dropBothWhile p s
  have hempty : ∀ c ∈ "".toList, p c := by simp
  by_cases hkept : dropBothWhile p s = ""
  · refine ⟨"", ?_, by rw [hkept]; rfl⟩
    have hall : ∀ c ∈ s.toList, p c := by
      rw [hs, hkept, String.append_empty, String.toList_append, List.forall_mem_append]
      exact ⟨hbefore, hafter⟩
    simpa using dropBothWhile_append hempty hall h
  · refine ⟨before ++ dropBothWhile p s, ?_, ?_⟩
    · have hbare : Bare p (front ++ (before ++ dropBothWhile p s)) := by
        rw [← String.append_assoc]
        exact h.append (bare_dropBothWhile p s) hne hkept before
      have hglued := dropBothWhile_append hempty hafter hbare
      rwa [String.empty_append, String.append_assoc, ← hs] at hglued
    · simpa using dropBothWhile_append hbefore hempty (bare_dropBothWhile p s)

end Ends

end GoBindings.Text
