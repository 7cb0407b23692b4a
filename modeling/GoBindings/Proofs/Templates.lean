/-
  GoBindings/Proofs/Templates.lean
  ================================
  **Templates are what `print` writes.**

  A text is a template exactly if it is the print of segments in normal form: some segments,
  no literal empty, no two literals side by side. Reading goes through pieces, which are
  characters and placeholders. Pieces are read back from their characters, whatever stands
  behind them (`pieces_print`), and what reads as pieces is their characters
  (`print_of_pieces`). Gathering puts pieces into normal form and loses nothing
  (`scatter_gather`, `gather_scatter`).
-/
import GoBindings.Settings.Template
import Mathlib.Data.List.Chain

namespace GoBindings

/-! ### Names of placeholders -/

namespace Placeholder

theorem ofName?_eq_some_iff {name : String} {p : Placeholder} :
    ofName? name = some p ↔ p.name = name := by
  constructor
  · intro h
    have hname := List.find?_some h
    exact eq_of_beq hname
  · rintro rfl
    cases p <;> decide

theorem brace_not_mem_name (p : Placeholder) :
    '\x7b' ∉ p.name.toList ∧ '\x7d' ∉ p.name.toList := by
  cases p <;> decide

end Placeholder

namespace Template

theorem map_eq_ok_iff {α β ε : Type} {x : Except ε α} {f : α → β} {b : β} :
    x.map f = .ok b ↔ ∃ a, x = .ok a ∧ f a = b := by
  cases x with
  | error e => simp [Except.map]
  | ok a => simp [Except.map]

/-! ### Pieces -/

/-- The characters that a piece is read from. -/
def Piece.print : Piece → List Char
  | .char c => printChar c
  | .placeholder p => '\x7b' :: p.name.toList ++ ['\x7d']

/-- A name is read up to the next closing brace. -/
theorem pieces_name (name more rest : List Char) (h : '\x7d' ∉ more) :
    pieces (some name) (more ++ '\x7d' :: rest) =
      pieces (some (name ++ more)) ('\x7d' :: rest) := by
  induction more generalizing name with
  | nil => rw [List.nil_append, List.append_nil]
  | cons c more ih =>
    rw [List.mem_cons, not_or] at h
    rw [List.cons_append, pieces, if_neg (Ne.symm h.1), ih (name ++ [c]) h.2, List.append_assoc,
      List.singleton_append]

theorem pieces_placeholder (p : Placeholder) (rest : List Char) :
    pieces none ('\x7b' :: (p.name.toList ++ '\x7d' :: rest)) =
      (pieces none rest).map (.placeholder p :: ·) := by
  have hopen : pieces none ('\x7b' :: (p.name.toList ++ '\x7d' :: rest)) =
      pieces (some []) (p.name.toList ++ '\x7d' :: rest) := by
    -- no name starts with a brace, so the brace in front is not a doubled one
    cases p <;> rfl
  rw [hopen, pieces_name _ _ _ p.brace_not_mem_name.2, List.nil_append, pieces, if_pos rfl,
    String.ofList_toList, Placeholder.ofName?_eq_some_iff.mpr rfl]

theorem pieces_char (c : Char) (rest : List Char) :
    pieces none (printChar c ++ rest) = (pieces none rest).map (.char c :: ·) := by
  unfold printChar
  by_cases hopen : c = '\x7b'
  · subst hopen
    rfl
  · by_cases hclose : c = '\x7d'
    · subst hclose
      rfl
    · simp only [hopen, hclose, decide_false, Bool.or_self, Bool.false_eq_true, if_false,
        List.singleton_append]
      rw [pieces] <;> simp [hopen, hclose]

theorem pieces_cons (piece : Piece) (rest : List Char) :
    pieces none (piece.print ++ rest) = (pieces none rest).map (piece :: ·) := by
  cases piece with
  | char c => exact pieces_char c rest
  | placeholder p =>
    have h := pieces_placeholder p rest
    simpa [Piece.print] using h

theorem pieces_print (ps : List Piece) : pieces none (ps.flatMap Piece.print) = .ok ps := by
  induction ps with
  | nil => rfl
  | cons piece ps ih =>
    rw [List.flatMap_cons, pieces_cons, ih]
    rfl

/-- What reads as pieces is the characters of these pieces. An open placeholder has a brace
    and a part of its name in front of what is still to read. -/
theorem print_of_pieces {opened : Option (List Char)} {cs : List Char} {ps : List Piece}
    (h : pieces opened cs = .ok ps) :
    ps.flatMap Piece.print = opened.elim [] ('\x7b' :: ·) ++ cs := by
  fun_induction pieces opened cs generalizing ps with
  | case1 => exact nomatch h
  | case2 name rest p hname ih =>
    obtain ⟨more, hmore, rfl⟩ := map_eq_ok_iff.mp h
    have hp : p.name.toList = name := by
      rw [Placeholder.ofName?_eq_some_iff.mp hname, String.toList_ofList]
    simp [Piece.print, ih hmore, hp]
  | case3 => exact nomatch h
  | case4 name c rest hc ih => simp [ih h]
  | case5 => simp_all
  | case6 rest ih | case7 rest ih =>
    obtain ⟨more, hmore, rfl⟩ := map_eq_ok_iff.mp h
    simp [Piece.print, printChar, ih hmore]
  | case8 rest _ ih => simp [ih h]
  | case9 => exact nomatch h
  | case10 c rest _ _ hopen hclose ih =>
    obtain ⟨more, hmore, rfl⟩ := map_eq_ok_iff.mp h
    have hc : printChar c = [c] := by
      unfold printChar
      rw [if_neg]
      simpa using ⟨fun hb => hopen hb, fun hb => hclose hb⟩
    simp [Piece.print, hc, ih hmore]

theorem pieces_eq_ok_iff {cs : List Char} {ps : List Piece} :
    pieces none cs = .ok ps ↔ ps.flatMap Piece.print = cs := by
  constructor
  · intro h
    exact print_of_pieces h
  · rintro rfl
    exact pieces_print ps

/-! ### Segments in normal form -/

/-- Not both are literals. -/
def Apart : Segment → Segment → Prop
  | .literal _, .literal _ => False
  | _, _ => True

/-- No literal is empty, and no two literals are neighbours. -/
structure Tidy (segments : List Segment) : Prop where
  literals : .literal "" ∉ segments
  apart : segments.IsChain Apart

/-- The segments of a template: some, and tidy. -/
structure Normal (segments : List Segment) : Prop extends Tidy segments where
  nonempty : segments ≠ []

/-- The pieces that a segment is gathered from. -/
def scatter : Segment → List Piece
  | .literal text => text.toList.map .char
  | .placeholder p => [.placeholder p]

theorem literal_singleton_append_ne (c : Char) (text : String) :
    Segment.literal "" ≠ .literal (String.singleton c ++ text) := by
  intro h
  have hlength := congrArg String.length (Segment.literal.inj h)
  rw [String.length_append, String.length_singleton, String.length_empty] at hlength
  omega

theorem apart_of_not_literal {a b : Segment} (h : ∀ text, b ≠ .literal text) : Apart a b := by
  cases b with
  | literal text => exact absurd rfl (h text)
  | placeholder p => cases a <;> trivial

theorem scatter_gather (ps : List Piece) : (gather ps).flatMap scatter = ps := by
  fun_induction gather ps with
  | case1 => rfl
  | case2 p rest ih =>
    rw [List.flatMap_cons, ih]
    rfl
  | case3 c rest text more hrest ih =>
    rw [hrest] at ih
    simpa [scatter, String.toList_append] using ih
  | case4 c rest hrest ih =>
    rw [List.flatMap_cons, ih]
    simp [scatter]

theorem tidy_gather (ps : List Piece) : Tidy (gather ps) := by
  fun_induction gather ps with
  | case1 => exact ⟨List.not_mem_nil, .nil⟩
  | case2 p rest ih =>
    refine ⟨by simpa using ih.literals, List.isChain_cons.mpr ⟨?_, ih.apart⟩⟩
    intro next _
    cases next <;> trivial
  | case3 c rest text more hrest ih =>
    obtain ⟨hliterals, hapart⟩ := hrest ▸ ih
    rw [List.mem_cons, not_or] at hliterals
    rw [List.isChain_cons] at hapart
    refine ⟨?_, List.isChain_cons.mpr ⟨?_, hapart.2⟩⟩
    · rw [List.mem_cons, not_or]
      exact ⟨literal_singleton_append_ne c text, hliterals.2⟩
    · -- the literal has grown, but what follows it is the same
      intro next hnext
      cases next with
      | literal other => exact hapart.1 _ hnext
      | placeholder p => trivial
  | case4 c rest hrest ih =>
    refine ⟨?_, List.isChain_cons.mpr ⟨?_, ih.apart⟩⟩
    · rw [List.mem_cons, not_or]
      refine ⟨?_, ih.literals⟩
      have hne := literal_singleton_append_ne c ""
      rwa [String.append_empty] at hne
    · intro next hnext
      apply apart_of_not_literal
      rintro text rfl
      obtain ⟨more, hmore⟩ := List.head?_eq_some_iff.mp hnext
      exact hrest text more hmore

theorem gather_chars {cs : List Char} {rest : List Piece} (hcs : cs ≠ [])
    (hrest : ∀ text more, gather rest ≠ .literal text :: more) :
    gather (cs.map .char ++ rest) = .literal (String.ofList cs) :: gather rest := by
  induction cs with
  | nil => exact absurd rfl hcs
  | cons c cs ih =>
    rw [List.map_cons, List.cons_append]
    by_cases hnil : cs = []
    · subst hnil
      rw [List.map_nil, List.nil_append, gather]
      split
      · rename_i text more hmore
        exact absurd hmore (hrest text more)
      · rfl
    · rw [gather, ih hnil]
      simp

theorem gather_scatter {segments : List Segment} (h : Tidy segments) :
    gather (segments.flatMap scatter) = segments := by
  induction segments with
  | nil => rfl
  | cons segment rest ih =>
    obtain ⟨hliterals, hapart⟩ := h
    rw [List.mem_cons, not_or] at hliterals
    rw [List.isChain_cons] at hapart
    have hgather := ih ⟨hliterals.2, hapart.2⟩
    cases segment with
    | placeholder p =>
      rw [List.flatMap_cons, scatter, List.singleton_append, gather, hgather]
    | literal text =>
      have htext : text.toList ≠ [] := by
        intro hnil
        rw [String.toList_eq_nil_iff] at hnil
        exact hliterals.1 (hnil ▸ rfl)
      rw [List.flatMap_cons, scatter, gather_chars htext, hgather, String.ofList_toList]
      intro other more hmore
      rw [hgather] at hmore
      exact hapart.1 (.literal other) (hmore ▸ rfl)

theorem gather_eq_iff {ps : List Piece} {segments : List Segment} :
    gather ps = segments ↔ Tidy segments ∧ segments.flatMap scatter = ps := by
  constructor
  · rintro rfl
    exact ⟨tidy_gather ps, scatter_gather ps⟩
  · rintro ⟨htidy, rfl⟩
    exact gather_scatter htidy

/-! ### Templates and their texts -/

theorem toList_printSegment (segment : Segment) :
    (printSegment segment).toList = (scatter segment).flatMap Piece.print := by
  cases segment with
  | literal text =>
    rw [printSegment, scatter, String.toList_ofList, List.flatMap_map]
    rfl
  | placeholder p =>
    simp [printSegment, scatter, Piece.print, String.toList_append]

theorem toList_print (segments : List Segment) :
    (print segments).toList = (segments.flatMap scatter).flatMap Piece.print := by
  rw [print, String.toList_join, List.flatMap_map, List.flatMap_assoc]
  exact List.flatMap_congr fun segment _ => toList_printSegment segment

theorem print_eq_empty_iff {segments : List Segment} (h : Tidy segments) :
    print segments = "" ↔ segments = [] := by
  constructor
  · intro hprint
    have hpieces : pieces none (print segments).toList = .ok (segments.flatMap scatter) :=
      pieces_eq_ok_iff.mpr (toList_print segments).symm
    rw [hprint] at hpieces
    rw [← gather_scatter h, ← Except.ok.inj hpieces]
    rfl
  · rintro rfl
    rfl

theorem segmentsOf_eq_ok_iff {source : String} {segments : List Segment} :
    segmentsOf source = .ok segments ↔ Normal segments ∧ print segments = source := by
  have hread : (pieces none source.toList).map gather = .ok segments ↔
      Tidy segments ∧ print segments = source := by
    simp only [map_eq_ok_iff, pieces_eq_ok_iff, gather_eq_iff, ← String.toList_inj, toList_print]
    constructor
    · rintro ⟨ps, hps, htidy, rfl⟩
      exact ⟨htidy, hps⟩
    · rintro ⟨htidy, hprint⟩
      exact ⟨_, hprint, htidy, rfl⟩
  unfold segmentsOf
  split
  case isTrue hempty =>
    rw [String.isEmpty_iff] at hempty
    subst hempty
    constructor
    · intro h
      exact nomatch h
    · rintro ⟨hnormal, hprint⟩
      exact absurd ((print_eq_empty_iff hnormal.toTidy).mp hprint) hnormal.nonempty
  case isFalse hempty =>
    rw [String.isEmpty_iff] at hempty
    rw [hread]
    constructor
    · rintro ⟨htidy, rfl⟩
      exact ⟨⟨htidy, fun hnil => hempty ((print_eq_empty_iff htidy).mpr hnil)⟩, rfl⟩
    · rintro ⟨hnormal, hprint⟩
      exact ⟨hnormal.toTidy, hprint⟩

theorem parse_eq_ok_iff {source : String} {t : Template} :
    parse source = .ok t ↔ t.source = source ∧ Normal t.segments ∧ print t.segments = source := by
  rw [← segmentsOf_eq_ok_iff]
  unfold parse
  cases hsegments : segmentsOf source with
  | error flaw => simp
  | ok segments =>
    obtain ⟨written, parts⟩ := t
    simp [eq_comm]

/-- Whatever is wrong with a text, it is the option for templates that is at fault. -/
theorem parse_cases (source : String) :
    (∃ t, parse source = .ok t) ∨ ∃ reason, parse source = .error (.invalidOption key reason) := by
  unfold parse
  cases segmentsOf source with
  | ok segments => exact .inl ⟨_, rfl⟩
  | error flaw => exact .inr ⟨_, rfl⟩

theorem normal_literal {text : String} (h : text ≠ "") : Normal [.literal text] := by
  refine ⟨⟨?_, .singleton _⟩, List.cons_ne_nil _ _⟩
  simpa using h.symm

/-- The templates and the lists of segments in normal form are one for one, by `print`. A text
    that is no print is refused, a text in doubled braces is a template that gives the text
    wherever it is used, and the usual template is the one for `method` in braces. -/
theorem parse_undoes_print :
    (∀ source t, parse source = .ok t ↔
        t.source = source ∧ Normal t.segments ∧ print t.segments = source) ∧
      (∀ source, (∃ reason, parse source = .error (.invalidOption key reason)) ↔
        ¬ ∃ segments, Normal segments ∧ print segments = source) ∧
      (∀ text, text ≠ "" → ∃ t, parse (print [.literal text]) = .ok t ∧
        ∀ ctx, t.render ctx = text) ∧
      (∀ source source' t t', parse source = .ok t → parse source' = .ok t' →
        (t = t' ↔ source = source') ∧ (t.segments = t'.segments ↔ source = source')) ∧
      parse "\x7bmethod\x7d" = .ok byMethod := by
  refine ⟨fun source t => parse_eq_ok_iff, ?_, ?_, ?_, by decide⟩
  · intro source
    constructor
    · rintro ⟨reason, hreason⟩ ⟨segments, hnormal, hprint⟩
      have hok : parse source = .ok ⟨source, segments⟩ :=
        parse_eq_ok_iff.mpr ⟨rfl, hnormal, hprint⟩
      exact nomatch hreason.symm.trans hok
    · intro hnone
      rcases parse_cases source with ⟨t, ht⟩ | hreason
      · exact absurd ⟨t.segments, (parse_eq_ok_iff.mp ht).2⟩ hnone
      · exact hreason
  · intro text htext
    refine ⟨⟨print [.literal text], [.literal text]⟩,
      parse_eq_ok_iff.mpr ⟨rfl, normal_literal htext, rfl⟩, ?_⟩
    intro ctx
    simp [render, renderSegment]
  · intro source source' t t' ht ht'
    obtain ⟨rfl, -, hprint⟩ := parse_eq_ok_iff.mp ht
    obtain ⟨rfl, -, hprint'⟩ := parse_eq_ok_iff.mp ht'
    have hsegments : t.segments = t'.segments ↔ t.source = t'.source := by
      constructor
      · intro h
        rw [← hprint, ← hprint', h]
      · intro h
        rw [h] at ht
        rw [Except.ok.inj (ht.symm.trans ht')]
    refine ⟨⟨congrArg source, ?_⟩, hsegments⟩
    intro h
    cases t
    cases t'
    simp_all

/-- Braces at both ends of a placeholder go with the text around it. -/
theorem parse_undoes_print_braces :
    parse "\x7b\x7b\x7bmethod\x7d\x7d\x7d" =
        .ok ⟨"\x7b\x7b\x7bmethod\x7d\x7d\x7d",
          [.literal "\x7b", .placeholder .method, .literal "\x7d"]⟩ ∧
      (¬ ∃ segments, Normal segments ∧ print segments = "\x7bmethod\x7d\x7d") ∧
      (∃ t, parse "\x7b\x7b\x7d\x7d" = .ok t ∧ ∀ ctx, t.render ctx = "\x7b\x7d") ∧
      (byMethod = ⟨"\x7bservice\x7d", [.placeholder .service]⟩ ↔
        "\x7bmethod\x7d" = "\x7bservice\x7d") := by
  obtain ⟨hread, hrefused, hescaped, hequal, hmethod⟩ := parse_undoes_print
  refine ⟨(hread _ _).mpr ⟨rfl, ⟨⟨by decide, by simp [Apart]⟩, by decide⟩, by decide⟩,
    (hrefused _).mp ⟨"unmatched '\x7d' in " ++ Text.quoted "\x7bmethod\x7d\x7d", rfl⟩,
    hescaped "\x7b\x7d" (by decide), ?_⟩
  exact (hequal _ _ _ _ hmethod (by decide)).1

end Template

end GoBindings
