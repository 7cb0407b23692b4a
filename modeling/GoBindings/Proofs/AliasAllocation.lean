/-
  GoBindings/Proofs/AliasAllocation.lean
  ======================================
  **What a run of additions does to the aliases.**

  A run keeps every alias that it has given (`keeps_addAll`), so what an addition answers
  is what the block says at the end, and an alias is chosen only when a path is first
  added. The choice is the first candidate that is not taken (`freshAlias_first`).

  Candidates with a number end in a digit, which no local and no alias of the framework
  does. Those that are taken were therefore given to other paths before, and the search
  has no more numbers to pass over than there were additions (`le_of_candidates_taken`).
  So a counter of 32 bits reaches the free one.
-/
import GoBindings.Proofs.Aliases
import Mathlib.Algebra.Group.Nat.Defs

namespace GoBindings.Go.Imports

variable {name : String} {n : Nat}

/-! ### Runs -/

/-- The block after paths have been added with names, one after the other. -/
def addAll (i : Imports) : List (String × String) → Imports
  | [] => i
  | (path, name) :: rest => (i.add path name).2.addAll rest

theorem addAll_append (calls later : List (String × String)) (i : Imports) :
    i.addAll (calls ++ later) = (i.addAll calls).addAll later := by
  induction calls generalizing i with
  | nil => rfl
  | cons call rest ih => exact ih (i.add call.1 call.2).2

theorem keeps_addAll (calls : List (String × String)) (i : Imports) :
    i.Keeps (i.addAll calls) := by
  induction calls generalizing i with
  | nil => exact .refl i
  | cons call rest ih => exact (keeps_add i call.1 call.2).trans (ih _)

theorem WellFormed.addAll {i : Imports} (h : i.WellFormed) (calls : List (String × String)) :
    (i.addAll calls).WellFormed := by
  induction calls generalizing i with
  | nil => exact h
  | cons call rest ih => exact ih (h.add call.1 call.2)

theorem mem_paths_addAll (calls : List (String × String)) (i : Imports) (path : String) :
    path ∈ (i.addAll calls).paths ↔ path ∈ i.paths ∨ path ∈ calls.map (·.1) := by
  induction calls generalizing i with
  | nil => simp [addAll]
  | cons call rest ih =>
    rw [addAll, ih, mem_paths_add, List.map_cons, List.mem_cons, or_assoc]

/-- An addition takes at most one name. -/
theorem exists_taken_addAll (calls : List (String × String)) (i : Imports) :
    ∃ given, (i.addAll calls).taken = i.taken ++ given ∧ given.length ≤ calls.length := by
  induction calls generalizing i with
  | nil => exact ⟨[], (List.append_nil _).symm, Nat.le_refl 0⟩
  | cons call rest ih =>
    obtain ⟨given, hgiven, hlength⟩ := ih (i.add call.1 call.2).2
    rcases add_cases i call.1 call.2 with ⟨known, -, hadd⟩ | ⟨-, hadd⟩
    · rw [hadd] at hgiven
      exact ⟨given, by rw [addAll, hadd, hgiven], Nat.le_succ_of_le hlength⟩
    · rw [hadd] at hgiven
      refine ⟨freshAlias i.taken call.2 :: given, ?_, Nat.succ_le_succ hlength⟩
      rw [addAll, hadd, hgiven]
      simp [taken]

/-- What an addition answers is what the block says from then on. -/
theorem alias?_addAll_concat (before after : List (String × String)) (i : Imports)
    (path name : String) :
    (i.addAll (before ++ (path, name) :: after)).alias? path =
      some ((i.addAll before).add path name).1 := by
  rw [addAll_append, addAll]
  exact keeps_addAll after _ path _ (alias?_add_self (i.addAll before) path name)

/-! ### How an alias is chosen -/

theorem add_of_not_mem {i : Imports} {path : String} (h : path ∉ i.paths) (name : String) :
    (i.add path name).1 = freshAlias i.taken name := by
  rcases add_cases i path name with ⟨known, hknown, -⟩ | ⟨-, hadd⟩
  · rw [alias?_eq_none_iff.mpr h] at hknown
    exact nomatch hknown
  · rw [hadd]

/-- How an alias is chosen for the name of a package. -/
inductive Chosen (taken : List String) (name : String) : String → Prop
  | plain (free : name ∉ taken) : Chosen taken name name
  | numbered {n : Nat} (blocked : name ∈ taken) (pos : 1 ≤ n)
      (free : name ++ toString n ∉ taken)
      (least : ∀ m, 1 ≤ m → m < n → name ++ toString m ∈ taken) :
      Chosen taken name (name ++ toString n)

theorem chosen_of_first {taken : List String} (hfree : candidate name n ∉ taken)
    (hbefore : ∀ m < n, candidate name m ∈ taken) : Chosen taken name (candidate name n) := by
  cases n with
  | zero => exact .plain hfree
  | succ n =>
    refine .numbered (hbefore 0 n.succ_pos) n.succ_pos hfree fun m hpos hm => ?_
    obtain ⟨m, rfl⟩ := Nat.exists_eq_add_of_le' hpos
    exact hbefore (m + 1) hm

/-! ### How far the search goes -/

theorem le_of_numbered_mem {given : List String}
    (h : ∀ m, 1 ≤ m → m < n → candidate name m ∈ given) : n ≤ given.length + 1 := by
  obtain ⟨k, hk, hfree⟩ := exists_candidate_not_mem (name :: given) name
  rw [List.mem_cons, not_or] at hfree
  rw [List.length_cons] at hk
  have hpos : 1 ≤ k := by
    refine Nat.one_le_iff_ne_zero.mpr ?_
    rintro rfl
    exact hfree.1 rfl
  by_contra hlarge
  exact hfree.2 (h k hpos (by omega))

/-- The search passes over the name, and over one number at most for each addition before. -/
theorem le_of_candidates_taken (calls : List (String × String))
    (h : ∀ m < n, candidate name m ∈ (framework.addAll calls).taken) :
    n ≤ calls.length + 1 := by
  obtain ⟨given, htaken, hlength⟩ := exists_taken_addAll calls framework
  have hletters : ∀ s ∈ framework.taken, s.toList.getLast?.any (!·.isDigit) := by
    decide +kernel
  have hgiven : ∀ m, 1 ≤ m → m < n → candidate name m ∈ given := by
    intro m hpos hm
    obtain ⟨m, rfl⟩ := Nat.exists_eq_add_of_le' hpos
    have hmem := h (m + 1) hm
    rw [htaken, List.mem_append] at hmem
    exact hmem.resolve_left (candidate_not_mem hletters name m)
  exact Nat.le_trans (le_of_numbered_mem hgiven) (Nat.succ_le_succ hlength)

/-- The alias that a search tries after some rounds, and the number for the next round. The number
    is counted in 32 bits with a sign, so it wraps around. -/
def search (name : String) : Nat → String × Int32
  | 0 => (name, 1)
  | k + 1 => (name ++ toString (search name k).2.toInt, (search name k).2 + 1)

theorem number_search (name : String) (k : Nat) : (search name k).2 = Int32.ofNat (k + 1) := by
  induction k with
  | zero => rfl
  | succ k ih => rw [search, ih, Int32.ofNat_add (k + 1) 1]; rfl

theorem alias_search (h : n < 2 ^ 31) : (search name n).1 = candidate name n := by
  cases n with
  | zero => rfl
  | succ n =>
    rw [search, number_search, Int32.toInt_ofNat_of_lt h]
    rfl

/-- The search ends, with an alias. Every round before has tried one that is taken. -/
def Finds (taken : List String) (name used : String) : Prop :=
  ∃ rounds, (∀ m < rounds, (search name m).1 ∈ taken) ∧
    (search name rounds).1 ∉ taken ∧ (search name rounds).1 = used

theorem finds_of_first {taken : List String} (hsize : n < 2 ^ 31)
    (hfree : candidate name n ∉ taken) (hbefore : ∀ m < n, candidate name m ∈ taken) :
    Finds taken name (candidate name n) := by
  refine ⟨n, fun m hm => ?_, ?_, alias_search hsize⟩
  · rw [alias_search (Nat.lt_trans hm hsize)]
    exact hbefore m hm
  · rw [alias_search hsize]
    exact hfree

/-! ### The aliases of a whole run -/

/-- After fewer than `2 ^ 31` additions to the framework's block, the paths with an alias are those
    of the framework and those that were added, each is listed once, no two have the same alias,
    and no alias is a local. The framework's aliases are kept, and every addition was answered by
    the alias that its path has at the end. When a path was first added, the search for its alias
    ended, with the name if that was free and else with the least number behind it that made it
    differ from the locals and from every alias before. -/
theorem aliases_allocated (calls : List (String × String)) (hsize : calls.length < 2 ^ 31) :
    (∀ path, (∃ used, (framework.addAll calls).alias? path = some used) ↔
        path ∈ framework.paths ∨ path ∈ calls.map (·.1)) ∧
      (framework.addAll calls).paths.Nodup ∧
      (∀ path other used, (framework.addAll calls).alias? path = some used →
        (framework.addAll calls).alias? other = some used → path = other) ∧
      (∀ path used, (framework.addAll calls).alias? path = some used → used ∉ reservedLocals) ∧
      ((framework.addAll calls).alias? nexusPath = some "nexus" ∧
        (framework.addAll calls).alias? workerPath = some "worker" ∧
        (framework.addAll calls).alias? workflowPath = some "workflow") ∧
      ∀ before path name after, calls = before ++ (path, name) :: after →
        (framework.addAll calls).alias? path =
            some ((framework.addAll before).add path name).1 ∧
          (path ∉ framework.paths → path ∉ before.map (·.1) →
            Finds (framework.addAll before).taken name
                ((framework.addAll before).add path name).1 ∧
              Chosen (framework.addAll before).taken name
                ((framework.addAll before).add path name).1) := by
  have hwell := wellFormed_framework.addAll calls
  have hkeeps := keeps_addAll calls framework
  refine ⟨fun path => ?_, hwell.paths, fun path other used => hwell.alias?_inj,
    fun path used h => ?_, ⟨hkeeps _ _ ?_, hkeeps _ _ ?_, hkeeps _ _ ?_⟩, ?_⟩
  · rw [← mem_paths_addAll]
    constructor
    · rintro ⟨used, hused⟩
      exact List.mem_map_of_mem (mem_entries_of_alias? hused)
    · exact exists_alias?_of_mem_paths
  · exact hwell.alias_not_local (List.mem_map_of_mem (mem_entries_of_alias? h))
  · decide +kernel
  · decide +kernel
  · decide +kernel
  · rintro before path name after rfl
    refine ⟨alias?_addAll_concat before after framework path name, fun hframework hbefore => ?_⟩
    have hnew : path ∉ (framework.addAll before).paths := by
      rw [mem_paths_addAll, not_or]
      exact ⟨hframework, hbefore⟩
    obtain ⟨n, hfirst, hfree, htaken⟩ :=
      freshAlias_first (framework.addAll before).taken name
    have hrange : n < 2 ^ 31 := by
      have hpassed := le_of_candidates_taken before htaken
      rw [List.length_append, List.length_cons] at hsize
      omega
    rw [add_of_not_mem hnew, hfirst]
    exact ⟨finds_of_first hrange hfree htaken, chosen_of_first hfree htaken⟩

/-- A path that is added under two names, and another one under the first of them. -/
def versions : List (String × String) :=
  [("example.com/common/v1", "v1"), ("example.com/common/v1", "common"),
    ("example.com/billing/v1", "v1")]

theorem aliases_allocated_versions :
    versions.length < 2 ^ 31 ∧
      (framework.addAll versions).alias? "example.com/common/v1" = some "v1" ∧
      (framework.addAll versions).alias? "example.com/billing/v1" = some "v11" ∧
      Chosen (framework.addAll (versions.take 2)).taken "v1" "v11" := by
  have hsize : versions.length < 2 ^ 31 := by decide
  obtain ⟨-, -, -, -, -, hadds⟩ := aliases_allocated versions hsize
  have hcommon := (hadds [versions[0]] "example.com/common/v1" "common" _ rfl).1
  obtain ⟨hbilling, hfirst⟩ :=
    hadds (versions.take 2) "example.com/billing/v1" "v1" [] rfl
  have hanswer : ((framework.addAll [versions[0]]).add "example.com/common/v1" "common").1 =
      "v1" := by
    decide +kernel
  have hchosen : ((framework.addAll (versions.take 2)).add "example.com/billing/v1" "v1").1 =
      "v11" := by
    decide +kernel
  rw [hanswer] at hcommon
  rw [hchosen] at hbilling hfirst
  exact ⟨hsize, hcommon, hbilling, (hfirst (by decide +kernel) (by decide +kernel)).2⟩

end GoBindings.Go.Imports
