/-
  GoBindings/Proofs/Keys.lean
  ===========================
  **Elements that are told apart by a key.**

  Where no two elements have one key, looking for a key finds the element that has it, wherever
  it stands. So what is found, and what sorting by keys gives, does not depend on the order of the
  elements. To keep the first element of each key does not change what is found either
  (`find?_firstBy`).
-/
import GoBindings.TypeIndex
import Mathlib.Data.List.Forall2
import Mathlib.Data.List.Nodup
import Mathlib.Data.List.Perm.Basic
import Mathlib.Data.String.Basic

namespace GoBindings

variable {α β γ κ : Type}

/-! ### Finding by a key -/

section Find

variable [BEq κ] [LawfulBEq κ] {key : α → κ} {xs ys : List α} {k : κ} {a : α}

theorem find?_key_eq_some_iff (h : (xs.map key).Nodup) :
    xs.find? (key · == k) = some a ↔ a ∈ xs ∧ key a = k := by
  constructor
  · intro hfound
    exact ⟨List.mem_of_find?_eq_some hfound, by simpa using List.find?_some hfound⟩
  · rintro ⟨ha, rfl⟩
    cases hfound : xs.find? (key · == key a) with
    | none => simpa using List.find?_eq_none.mp hfound a ha
    | some b =>
      have hb : b ∈ xs := List.mem_of_find?_eq_some hfound
      have hkey : key b = key a := by simpa using List.find?_some hfound
      rw [List.inj_on_of_nodup_map h hb ha hkey]

theorem find?_key_perm (h : xs.Perm ys) (hnodup : (xs.map key).Nodup) (k : κ) :
    xs.find? (key · == k) = ys.find? (key · == k) := by
  have hnodup' : (ys.map key).Nodup := (h.map key).nodup hnodup
  ext a
  rw [find?_key_eq_some_iff hnodup, find?_key_eq_some_iff hnodup', h.mem_iff]

theorem lookup_eq_find? (xs : List (κ × β)) (k : κ) :
    xs.lookup k = (xs.find? (·.1 == k)).map (·.2) := by
  induction xs with
  | nil => rfl
  | cons x rest ih =>
    rw [List.lookup_cons, List.find?_cons, BEq.comm]
    cases x.1 == k
    · exact ih
    · rfl

theorem lookup_perm {xs ys : List (κ × β)} (h : xs.Perm ys) (hnodup : (xs.map (·.1)).Nodup)
    (k : κ) : xs.lookup k = ys.lookup k := by
  rw [lookup_eq_find?, lookup_eq_find?, find?_key_perm h hnodup]

end Find

/-! ### Keeping the first of each key -/

section FirstBy

variable {α : Type} {key : α → String} {xs : List α} {x : α} {k : String}

theorem mem_keys_firstBy_iff : k ∈ (firstBy key xs).map key ↔ k ∈ xs.map key := by
  induction xs with
  | nil => exact Iff.rfl
  | cons y rest ih =>
    rw [firstBy, List.map_cons, List.map_cons, List.mem_cons, List.mem_cons, ← ih]
    by_cases hk : k = key y
    · simp [hk]
    · refine or_congr_right ?_
      simp only [List.mem_map, List.mem_filter, bne_iff_ne]
      constructor
      · rintro ⟨z, ⟨hz, -⟩, rfl⟩
        exact ⟨z, hz, rfl⟩
      · rintro ⟨z, hz, rfl⟩
        exact ⟨z, ⟨hz, hk⟩, rfl⟩

theorem nodup_keys_firstBy (key : α → String) (xs : List α) :
    ((firstBy key xs).map key).Nodup := by
  induction xs with
  | nil => exact List.nodup_nil
  | cons y rest ih =>
    rw [firstBy, List.map_cons, List.nodup_cons]
    refine ⟨?_, ih.sublist (List.filter_sublist.map key)⟩
    intro hmem
    obtain ⟨z, hz, hkey⟩ := List.mem_map.mp hmem
    have hne := (List.mem_filter.mp hz).2
    rw [hkey, bne_self_eq_false] at hne
    exact nomatch hne

/-- Looking for a key finds the first element that has it, before and after. -/
theorem find?_firstBy (key : α → String) (xs : List α) (k : String) :
    (firstBy key xs).find? (key · == k) = xs.find? (key · == k) := by
  induction xs with
  | nil => rfl
  | cons y rest ih =>
    rw [firstBy, List.find?_cons, List.find?_cons, ← ih]
    by_cases hy : key y = k
    · rw [beq_iff_eq.mpr hy]
    · rw [beq_false_of_ne hy, List.find?_filter]
      dsimp only
      congr 1
      funext z
      by_cases hz : key z = k
      · simp [hz, Ne.symm hy]
      · simp [hz]

theorem mem_firstBy_iff :
    x ∈ firstBy key xs ↔ xs.find? (key · == key x) = some x := by
  rw [← find?_firstBy, find?_key_eq_some_iff (nodup_keys_firstBy key xs)]
  exact (and_iff_left rfl).symm

theorem mem_of_mem_firstBy (h : x ∈ firstBy key xs) : x ∈ xs :=
  List.mem_of_find?_eq_some (mem_firstBy_iff.mp h)

theorem firstBy_of_nodup (h : (xs.map key).Nodup) : firstBy key xs = xs := by
  induction xs with
  | nil => rfl
  | cons x rest ih =>
    rw [List.map_cons, List.nodup_cons] at h
    rw [firstBy, ih h.2, List.filter_eq_self.mpr]
    intro y hy
    exact bne_iff_ne.mpr fun heq => h.1 (heq ▸ List.mem_map_of_mem hy)

end FirstBy

/-! ### Sorting by a key -/

section Sorting

variable {key : α → String} {xs ys : List α}

theorem pairwise_mergeSort_key (key : α → String) (xs : List α) :
    (xs.mergeSort fun a b => decide (key a ≤ key b)).Pairwise fun a b => key a ≤ key b := by
  have hpairwise : (xs.mergeSort fun a b => decide (key a ≤ key b)).Pairwise
      fun a b => decide (key a ≤ key b) = true :=
    List.pairwise_mergeSort
      (fun a b c hab hbc =>
        decide_eq_true ((of_decide_eq_true hab).trans (of_decide_eq_true hbc)))
      (fun a b => by simpa using le_total (key a) (key b)) xs
  exact hpairwise.imp of_decide_eq_true

theorem ascending_mergeSort_key (hnodup : (xs.map key).Nodup) :
    ((xs.mergeSort fun a b => decide (key a ≤ key b)).map key).Pairwise (· < ·) := by
  have hdistinct : ((xs.mergeSort fun a b => decide (key a ≤ key b)).map key).Nodup :=
    (((List.mergeSort_perm xs _).map key).nodup_iff).mpr hnodup
  have hsorted := List.pairwise_map.mpr (pairwise_mergeSort_key key xs)
  exact (hsorted.and hdistinct).imp fun ⟨hle, hne⟩ => lt_of_le_of_ne hle hne

theorem mergeSort_key_perm (h : xs.Perm ys) (hnodup : (xs.map key).Nodup) :
    xs.mergeSort (fun a b => decide (key a ≤ key b)) =
      ys.mergeSort fun a b => decide (key a ≤ key b) := by
  -- elements with one key could stand in either order; there are none
  refine List.Perm.eq_of_pairwise ?_ (pairwise_mergeSort_key key xs)
    (pairwise_mergeSort_key key ys)
    (((List.mergeSort_perm xs _).trans h).trans (List.mergeSort_perm ys _).symm)
  intro a b ha hb hab hba
  have hmem : b ∈ xs := h.mem_iff.mpr (List.mem_mergeSort.mp hb)
  exact List.inj_on_of_nodup_map hnodup (List.mem_mergeSort.mp ha) hmem (le_antisymm hab hba)

end Sorting

/-! ### One for one -/

theorem forall₂_comp {R : α → β → Prop} {S : β → γ → Prop} {T : α → γ → Prop} {xs : List α}
    {ys : List β} {zs : List γ} (hxy : List.Forall₂ R xs ys) (hyz : List.Forall₂ S ys zs)
    (h : ∀ x y z, R x y → S y z → T x z) : List.Forall₂ T xs zs := by
  induction hxy generalizing zs with
  | nil => cases hyz; exact .nil
  | cons hfirst _ ih =>
    cases hyz with
    | cons hsecond hrest => exact .cons (h _ _ _ hfirst hsecond) (ih hrest)

/-- Lists that go back to one list in ways that agree have the same images. -/
theorem map_eq_of_forall₂ {R : α → β → Prop} {S : α → β → Prop} {g : β → γ} {xs : List α}
    {ys zs : List β} (hxy : List.Forall₂ R xs ys) (hxz : List.Forall₂ S xs zs)
    (h : ∀ x ∈ xs, ∀ y z, R x y → S x z → g y = g z) : ys.map g = zs.map g := by
  induction hxy generalizing zs with
  | nil => cases hxz; rfl
  | cons hfirst _ ih =>
    cases hxz with
    | cons hother hrest =>
      rw [List.map_cons, List.map_cons, h _ List.mem_cons_self _ _ hfirst hother,
        ih hrest fun x hx => h x (List.mem_cons_of_mem _ hx)]

theorem eq_of_forall₂ {R : α → β → Prop} {S : α → β → Prop} {xs : List α} {ys zs : List β}
    (hxy : List.Forall₂ R xs ys) (hxz : List.Forall₂ S xs zs)
    (h : ∀ x ∈ xs, ∀ y z, R x y → S x z → y = z) : ys = zs := by
  have himages : ys.map id = zs.map id := map_eq_of_forall₂ hxy hxz h
  rwa [List.map_id, List.map_id] at himages

/-- Lists that go back to the same elements in another order, in ways that agree, have the same
    images in another order. -/
theorem perm_map_of_forall₂ {R : α → β → Prop} {S : α → β → Prop} {g : β → γ} {xs xs' : List α}
    {ys ys' : List β} (hxy : List.Forall₂ R xs ys) (hxy' : List.Forall₂ S xs' ys')
    (hperm : xs.Perm xs') (h : ∀ x ∈ xs, ∀ y y', R x y → S x y' → g y = g y') :
    (ys.map g).Perm (ys'.map g) := by
  obtain ⟨zs, hzs, hperm'⟩ := List.perm_comp_forall₂ hperm.symm hxy
  have hsame : zs.map g = ys'.map g :=
    map_eq_of_forall₂ hzs hxy' fun x hx => h x (hperm.mem_iff.mpr hx)
  exact hsame ▸ hperm'.symm.map g

theorem perm_of_forall₂ {R : α → β → Prop} {S : α → β → Prop} {xs xs' : List α} {ys ys' : List β}
    (hxy : List.Forall₂ R xs ys) (hxy' : List.Forall₂ S xs' ys') (hperm : xs.Perm xs')
    (h : ∀ x ∈ xs, ∀ y y', R x y → S x y' → y = y') : ys.Perm ys' := by
  have himages : (ys.map id).Perm (ys'.map id) := perm_map_of_forall₂ hxy hxy' hperm h
  rwa [List.map_id, List.map_id] at himages

theorem flatMap_eq_of_forall₂ {R : α → β → Prop} {g : α → List γ} {h : β → List γ} {xs : List α}
    {ys : List β} (hxy : List.Forall₂ R xs ys) (hgh : ∀ x y, R x y → g x = h y) :
    xs.flatMap g = ys.flatMap h := by
  induction hxy with
  | nil => rfl
  | cons hfirst _ ih => rw [List.flatMap_cons, List.flatMap_cons, hgh _ _ hfirst, ih]

theorem find?_of_forall₂ {R : α → β → Prop} {p : α → Bool} {q : β → Bool} {xs : List α}
    {ys : List β} (hxy : List.Forall₂ R xs ys) (hpq : ∀ x y, R x y → p x = q y) :
    Option.Rel R (xs.find? p) (ys.find? q) := by
  induction hxy with
  | nil => exact .none
  | @cons x y _ _ hfirst _ ih =>
    rw [List.find?_cons, List.find?_cons, ← hpq x y hfirst]
    cases p x
    · exact ih
    · exact .some hfirst

theorem bind_eq_of_rel {R : α → β → Prop} {a : Option α} {b : Option β} {g : α → Option γ}
    {h : β → Option γ} (hab : Option.Rel R a b) (hgh : ∀ x y, R x y → g x = h y) :
    a.bind g = b.bind h := by
  cases hab with
  | some hxy => exact hgh _ _ hxy
  | none => rfl

theorem exists_of_mem_right {R : α → β → Prop} {xs : List α} {ys : List β} {y : β}
    (h : List.Forall₂ R xs ys) (hy : y ∈ ys) : ∃ x ∈ xs, R x y := by
  induction h with
  | nil => exact absurd hy List.not_mem_nil
  | cons hfirst _ ih =>
    rcases List.mem_cons.mp hy with rfl | hy
    · exact ⟨_, List.mem_cons_self, hfirst⟩
    · obtain ⟨x, hx, hxy⟩ := ih hy
      exact ⟨x, List.mem_cons_of_mem _ hx, hxy⟩

theorem forall₂_of_zip {R : α → β → Prop} {S : α × β → γ → Prop} {T : α → γ → Prop}
    {xs : List α} {ys : List β} {zs : List γ} (hxy : List.Forall₂ R xs ys)
    (hzip : List.Forall₂ S (xs.zip ys) zs) (h : ∀ x y z, R x y → S (x, y) z → T x z) :
    List.Forall₂ T xs zs := by
  induction hxy generalizing zs with
  | nil => cases hzip; exact .nil
  | cons hfirst _ ih =>
    cases hzip with
    | cons hsecond hrest => exact .cons (h _ _ _ hfirst hsecond) (ih hrest)

theorem mapM_eq_some_iff {f : α → Option β} {xs : List α} {ys : List β} :
    xs.mapM f = some ys ↔ List.Forall₂ (fun x y => f x = some y) xs ys := by
  induction xs generalizing ys with
  | nil => simp [eq_comm]
  | cons x xs ih =>
    simp only [List.mapM_cons, Option.bind_eq_bind, Option.bind_eq_some_iff, ih]
    constructor
    · rintro ⟨y, hy, rest, hrest, hys⟩
      exact Option.some.inj hys ▸ .cons hy hrest
    · rintro (_ | ⟨hy, hrest⟩)
      exact ⟨_, hy, _, hrest, rfl⟩

theorem mapM_eq_none_iff {f : α → Option β} {xs : List α} :
    xs.mapM f = none ↔ ∃ x ∈ xs, f x = none := by
  induction xs with
  | nil => simp
  | cons x xs ih =>
    rw [List.mapM_cons]
    cases hx : f x with
    | none => simp [hx]
    | some y =>
      cases hxs : xs.mapM f with
      | none => simpa [hx] using ih.mp hxs
      | some ys => simpa [hx, hxs] using ih

end GoBindings
