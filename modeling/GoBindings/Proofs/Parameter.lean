/-
  GoBindings/Proofs/Parameter.lean
  ================================
  **Reading a parameter, entry by entry.**

  The entries are read in order. Each says a key that is new and a value that fits it
  (`Reads`), up to the first that does not: it is refused, and what comes after it is not looked
  at (`applyAll_eq_ok_iff`, `applyAll_eq_error_iff`). What holds of the standard settings and is
  kept by every choice thus holds of all settings that a parameter can choose
  (`parse_induction`).
-/
import GoBindings.Proofs.Choices
import GoBindings.Proofs.Generation

namespace GoBindings.Settings

variable {s settings : Settings} {seen : List String} {entry : String} {rest : List String}
  {pairs : List (String × String)} {choices : List Choice} {fault : Fault}

/-! ### One entry -/

theorem applyAll_cons_eq_ok_iff :
    applyAll seen s (entry :: rest) = .ok settings ↔
      ∃ key value c, Says entry key value ∧ key ∉ seen ∧ Makes key value c ∧
        applyAll (key :: seen) (s.apply c) rest = .ok settings := by
  simp only [applyAll, Traced.except_bind_eq_ok, Prod.exists, keyValue_eq_ok_iff,
    choice_eq_ok_iff, List.contains_eq_mem, decide_eq_false_iff_not, and_assoc,
    exists_and_left]

theorem applyAll_cons_eq_error_iff :
    applyAll seen s (entry :: rest) = .error fault ↔
      Refused seen entry fault ∨
        ∃ key value c, Says entry key value ∧ key ∉ seen ∧ Makes key value c ∧
          applyAll (key :: seen) (s.apply c) rest = .error fault := by
  simp only [applyAll, Traced.except_bind_eq_error, Prod.exists, keyValue_eq_ok_iff,
    keyValue_eq_error_iff, choice_eq_ok_iff, choice_eq_error_iff, List.contains_eq_mem,
    decide_eq_false_iff_not, decide_eq_true_eq]
  constructor
  · rintro (⟨hbare, rfl⟩ | ⟨key, value, hsaid, (⟨hflawed, hseen⟩ | ⟨hseen, hvalue, rfl⟩) |
      ⟨c, ⟨hnew, hmakes⟩, hrest⟩⟩)
    · exact .inl (.bare hbare)
    · exact .inl (.flawed hsaid hflawed hseen)
    · exact .inl (.repeated hsaid hseen hvalue)
    · exact .inr ⟨key, value, c, hsaid, hnew, hmakes, hrest⟩
  · rintro (hrefused | ⟨key, value, c, hsaid, hnew, hmakes, hrest⟩)
    · cases hrefused with
      | bare hbare => exact .inl ⟨hbare, rfl⟩
      | flawed hsaid hflawed hseen => exact .inr ⟨_, _, hsaid, .inl (.inl ⟨hflawed, hseen⟩)⟩
      | repeated hsaid hseen hvalue =>
        exact .inr ⟨_, _, hsaid, .inl (.inr ⟨hseen, hvalue, rfl⟩)⟩
    · exact .inr ⟨key, value, hsaid, .inr ⟨c, ⟨hnew, hmakes⟩, hrest⟩⟩

/-! ### A run -/

/-- Behind entries with the keys `seen`, each of these entries says a pair of a new key and a
    value that fits it, and so makes a choice. -/
inductive Reads : List String → List String → List (String × String) → List Choice → Prop
  | nil {seen : List String} : Reads seen [] [] []
  | cons {seen rest : List String} {entry key value : String} {c : Choice}
      {pairs : List (String × String)} {choices : List Choice} (hsaid : Says entry key value)
      (hnew : key ∉ seen) (hmakes : Makes key value c)
      (hrest : Reads (key :: seen) rest pairs choices) :
      Reads seen (entry :: rest) ((key, value) :: pairs) (c :: choices)

theorem applyAll_eq_ok_iff {entries : List String} :
    applyAll seen s entries = .ok settings ↔
      ∃ pairs choices, Reads seen entries pairs choices ∧ choices.foldl apply s = settings := by
  induction entries generalizing seen s with
  | nil =>
    constructor
    · intro h
      exact ⟨[], [], .nil, Except.ok.inj h⟩
    · rintro ⟨pairs, choices, hreads, rfl⟩
      cases hreads
      rfl
  | cons entry rest ih =>
    rw [applyAll_cons_eq_ok_iff]
    simp only [ih]
    constructor
    · rintro ⟨key, value, c, hsaid, hnew, hmakes, pairs, choices, hrest, hsettings⟩
      exact ⟨_, _, .cons hsaid hnew hmakes hrest, hsettings⟩
    · rintro ⟨_, _, hreads, hsettings⟩
      cases hreads with
      | cons hsaid hnew hmakes hrest =>
        exact ⟨_, _, _, hsaid, hnew, hmakes, _, _, hrest, hsettings⟩

/-- The first entry that is refused gives the fault. -/
theorem applyAll_eq_error_iff {entries : List String} :
    applyAll seen s entries = .error fault ↔
      ∃ before entry after pairs choices, entries = before ++ entry :: after ∧
        Reads seen before pairs choices ∧ Refused (pairs.map (·.1) ++ seen) entry fault := by
  induction entries generalizing seen s with
  | nil =>
    constructor
    · intro h
      exact nomatch h
    · rintro ⟨before, entry, after, pairs, choices, hentries, -⟩
      exact absurd hentries.symm (List.append_ne_nil_of_right_ne_nil _ (List.cons_ne_nil _ _))
  | cons entry rest ih =>
    rw [applyAll_cons_eq_error_iff]
    -- the keys before are the same, with the first one in another place
    have hmove (key : String) (pairs : List (String × String)) (later : String) :
        Refused (pairs.map (·.1) ++ key :: seen) later fault ↔
          Refused (key :: (pairs.map (·.1) ++ seen)) later fault :=
      Refused.congr fun k => List.perm_middle.mem_iff
    simp only [ih]
    constructor
    · rintro (hrefused | ⟨key, value, c, hsaid, hnew, hmakes, before, later, after, pairs,
        choices, rfl, hbefore, hrefused⟩)
      · exact ⟨[], entry, rest, [], [], rfl, .nil, hrefused⟩
      · exact ⟨entry :: before, later, after, (key, value) :: pairs, c :: choices, rfl,
          .cons hsaid hnew hmakes hbefore, (hmove _ _ _).mp hrefused⟩
    · rintro ⟨before, later, after, pairs, choices, hentries, hbefore, hrefused⟩
      cases hbefore with
      | nil =>
        obtain ⟨rfl, rfl⟩ := List.cons.inj hentries
        exact .inl hrefused
      | cons hsaid hnew hmakes hrest =>
        obtain ⟨rfl, rfl⟩ := List.cons.inj hentries
        exact .inr ⟨_, _, _, hsaid, hnew, hmakes, _, _, _, _, _, rfl, hrest,
          (hmove _ _ _).mpr hrefused⟩

/-! ### Accepted parameters -/

/-- What every choice keeps is true of all settings that a parameter can choose. -/
theorem parse_induction {P : Settings → Prop} (hstandard : P standard)
    (hkeep : ∀ s key value c, Makes key value c → P s → P (s.apply c))
    {parameter : Option String} (h : parse parameter = .ok settings) : P settings := by
  have hrun : ∀ {seen entries pairs choices s}, Reads seen entries pairs choices → P s →
      P (choices.foldl apply s) := by
    intro seen entries pairs choices s hreads
    induction hreads generalizing s with
    | nil => exact id
    | cons _ _ hmakes _ ih => exact fun hs => ih (hkeep _ _ _ _ hmakes hs)
  cases parameter with
  | none => exact Except.ok.inj h ▸ hstandard
  | some text =>
    obtain ⟨chosen, hchosen, h⟩ := Traced.except_bind_eq_ok.mp h
    obtain ⟨pairs, choices, hreads, rfl⟩ := applyAll_eq_ok_iff.mp hchosen
    unfold checkPlacement at h
    split_ifs at h
    exact Except.ok.inj h ▸ hrun hreads hstandard

/-- A suffix is part of a file's name and names no directory. -/
theorem slash_not_mem_fileSuffix {parameter : Option String}
    (h : parse parameter = .ok settings) : '/' ∉ settings.fileSuffix.toList := by
  refine parse_induction (P := fun s => '/' ∉ s.fileSuffix.toList) (by decide) ?_ h
  intro s key value c hmakes hs
  cases hmakes with
  | fileSuffix hne hslash => exact hslash
  | package | template | module | importPath | sourceRelative | mapping => exact hs

end GoBindings.Settings
