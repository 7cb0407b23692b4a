/-
  GoBindings/Proofs/Registry.lean
  ===============================
  **The registry is a log in which the first claim wins.**

  Everything the registry does is read off `owner?`. Granting, offering and
  reserving all add a claim behind those that there are, so an identifier that
  has an owner keeps it (`Extends`), and claims at one path say nothing about
  another (`owner?_reserveAll_of_ne`). Two registries with the same owners at a
  path therefore answer claims at that path alike (`SameAt`).

  The origin of a claim tells a type from a service or an operation. A package
  whose types were claimed before anything else keeps its type identifiers for
  types (`Seeded`).
-/
import GoBindings.Registry
import Mathlib.Data.List.Nodup

namespace GoBindings.Registry

variable {r next : Registry} {c : Claim} {claims : List Claim} {path ident : String}

/-! ### Owners -/

/-- Among two logs one after the other, the first that knows an owner decides. -/
theorem owner?_append (earlier later : List Claim) (path ident : String) :
    owner? ⟨earlier ++ later⟩ path ident =
      (owner? ⟨earlier⟩ path ident).or (owner? ⟨later⟩ path ident) := by
  simp only [owner?, List.find?_append, Option.map_or]

theorem owner?_singleton (c : Claim) (path ident : String) :
    owner? ⟨[c]⟩ path ident =
      if c.path = path ∧ c.ident = ident then some c.origin else none := by
  by_cases h : c.path = path ∧ c.ident = ident
  · simp [owner?, h]
  · rw [if_neg h]
    simpa [owner?] using h

theorem exists_claim_of_owner? {origin : String} (h : owner? ⟨claims⟩ path ident = some origin) :
    ∃ c ∈ claims, c.path = path ∧ c.ident = ident ∧ c.origin = origin := by
  obtain ⟨c, hfind, horigin⟩ := Option.map_eq_some_iff.mp h
  have hc := List.find?_some hfind
  simp only [Bool.and_eq_true, beq_iff_eq] at hc
  exact ⟨c, List.mem_of_find?_eq_some hfind, hc.1, hc.2, horigin⟩

theorem owner?_isSome_of_mem (hc : c ∈ claims) : (owner? ⟨claims⟩ c.path c.ident).isSome := by
  simp only [owner?, Option.isSome_map, List.find?_isSome]
  exact ⟨c, hc, by simp⟩

theorem owner?_eq_none_of_path_ne (h : ∀ c ∈ claims, c.path ≠ path) :
    owner? ⟨claims⟩ path ident = none := by
  simp only [owner?, Option.map_eq_none_iff, List.find?_eq_none]
  intro c hc
  simp [h c hc]

theorem owner?_grant (r : Registry) (c : Claim) (path ident : String) :
    (r.grant c).owner? path ident = (r.owner? path ident).or (owner? ⟨[c]⟩ path ident) :=
  owner?_append r.claims [c] path ident

theorem or_owner?_singleton (h : (r.owner? c.path c.ident).isSome) (path ident : String) :
    (r.owner? path ident).or (owner? ⟨[c]⟩ path ident) = r.owner? path ident := by
  rw [owner?_singleton]
  by_cases hc : c.path = path ∧ c.ident = ident
  · obtain ⟨rfl, rfl⟩ := hc
    exact Option.or_eq_left_of_isSome h
  · rw [if_neg hc, Option.or_none]

/-! ### Offers -/

theorem owner?_offer (r : Registry) (c : Claim) (path ident : String) :
    (r.offer c).owner? path ident = (r.owner? path ident).or (owner? ⟨[c]⟩ path ident) := by
  unfold offer
  split
  case isTrue h => exact (or_owner?_singleton h path ident).symm
  case isFalse h => exact owner?_grant r c path ident

theorem owner?_foldl_offer (claims : List Claim) (r : Registry) (path ident : String) :
    (claims.foldl offer r).owner? path ident =
      (r.owner? path ident).or (owner? ⟨claims⟩ path ident) := by
  induction claims generalizing r with
  | nil => exact Option.or_none.symm
  | cons c claims ih =>
    rw [List.foldl_cons, ih, owner?_offer, Option.or_assoc]
    exact congrArg _ (owner?_append [c] claims path ident).symm

theorem owner?_seed (r : Registry) (index : TypeIndex) (packagePath path ident : String) :
    (r.seed index packagePath).owner? path ident =
      (r.owner? path ident).or (owner? ⟨typeClaims index packagePath⟩ path ident) :=
  owner?_foldl_offer (typeClaims index packagePath) r path ident

/-! ### Reservations -/

/-- A reservation is granted when the identifier is free, and leaves things as they are
    when its own origin has the identifier already. -/
theorem reserve_eq_ok (h : r.reserve c = .ok next) :
    (r.owner? c.path c.ident = none ∧ next = r.grant c) ∨
      (r.owner? c.path c.ident = some c.origin ∧ next = r) := by
  unfold reserve at h
  split at h
  case h_1 hnone => exact .inl ⟨hnone, (Except.ok.inj h).symm⟩
  case h_2 first hsome =>
    split at h
    case isTrue horigin => exact .inr ⟨horigin ▸ hsome, (Except.ok.inj h).symm⟩
    case isFalse => exact nomatch h

theorem owner?_reserve (h : r.reserve c = .ok next) (path ident : String) :
    next.owner? path ident = (r.owner? path ident).or (owner? ⟨[c]⟩ path ident) := by
  obtain ⟨-, rfl⟩ | ⟨howner, rfl⟩ := reserve_eq_ok h
  · exact owner?_grant r c path ident
  · exact (or_owner?_singleton (howner ▸ rfl) path ident).symm

theorem owner?_reserve_self (h : r.reserve c = .ok next) :
    next.owner? c.path c.ident = some c.origin := by
  rw [owner?_reserve h, owner?_singleton, if_pos ⟨rfl, rfl⟩]
  obtain ⟨hnone, -⟩ | ⟨hsome, -⟩ := reserve_eq_ok h
  · rw [hnone, Option.none_or]
  · rw [hsome, Option.some_or]

/-! ### Owners stay -/

/-- Every owner of the first registry is the owner in the second one. -/
def Extends (r next : Registry) : Prop :=
  ∀ path ident origin, r.owner? path ident = some origin → next.owner? path ident = some origin

theorem Extends.refl (r : Registry) : Extends r r := fun _ _ _ h => h

theorem Extends.trans {last : Registry} (h₁ : Extends r next) (h₂ : Extends next last) :
    Extends r last :=
  fun path ident origin h => h₂ path ident origin (h₁ path ident origin h)

theorem extends_of_or
    (h : ∀ path ident, next.owner? path ident =
      (r.owner? path ident).or (owner? ⟨claims⟩ path ident)) : Extends r next := by
  intro path ident origin howner
  rw [h, howner, Option.some_or]

theorem extends_reserve (h : r.reserve c = .ok next) : Extends r next :=
  extends_of_or (owner?_reserve h)

theorem extends_seed (r : Registry) (index : TypeIndex) (path : String) :
    Extends r (r.seed index path) :=
  extends_of_or (owner?_seed r index path)

theorem reserveAll_cons_ok (h : r.reserve c = .ok next) (rest : List Claim) :
    r.reserveAll (c :: rest) = next.reserveAll rest := by
  rw [reserveAll, h]

theorem reserveAll_cons_error {fault : Fault} (h : r.reserve c = .error fault)
    (rest : List Claim) : r.reserveAll (c :: rest) = (r, some fault) := by
  rw [reserveAll, h]

theorem extends_reserveAll (claims : List Claim) (r : Registry) :
    Extends r (r.reserveAll claims).1 := by
  induction claims generalizing r with
  | nil => exact Extends.refl r
  | cons c rest ih =>
    cases h : r.reserve c with
    | error fault =>
      rw [reserveAll_cons_error h]
      exact Extends.refl r
    | ok next =>
      rw [reserveAll_cons_ok h]
      exact (extends_reserve h).trans (ih next)

/-! ### Claims that hold -/

/-- The origin of a claim is the owner of its identifier. -/
def Holds (r : Registry) (c : Claim) : Prop := r.owner? c.path c.ident = some c.origin

theorem Holds.mono (h : r.Holds c) (hext : Extends r next) : next.Holds c :=
  hext c.path c.ident c.origin h

theorem holds_of_reserveAll (h : (r.reserveAll claims).2 = none) :
    ∀ c ∈ claims, (r.reserveAll claims).1.Holds c := by
  induction claims generalizing r with
  | nil => exact fun c hc => absurd hc List.not_mem_nil
  | cons first rest ih =>
    cases hfirst : r.reserve first with
    | error fault =>
      rw [reserveAll_cons_error hfirst] at h
      exact nomatch h
    | ok next =>
      rw [reserveAll_cons_ok hfirst] at h ⊢
      intro c hc
      rcases List.mem_cons.mp hc with rfl | hc
      · exact Holds.mono (owner?_reserve_self hfirst) (extends_reserveAll rest next)
      · exact ih h c hc

/-- Of claims at one path that hold, no two different ones are to one identifier. -/
theorem nodup_idents_of_holds (hclaims : claims.Nodup) (hpath : ∀ c ∈ claims, c.path = path)
    (hholds : ∀ c ∈ claims, r.Holds c) : (claims.map (·.ident)).Nodup := by
  refine List.Nodup.map_on ?_ hclaims
  intro a ha b hb hident
  have hpaths : a.path = b.path := (hpath a ha).trans (hpath b hb).symm
  have horigins : some a.origin = some b.origin := by
    rw [← hholds a ha, ← hholds b hb, hpaths, hident]
  cases a
  cases b
  simp_all

/-! ### Paths are independent -/

/-- Two registries have the same owners at a path. -/
def SameAt (path : String) (r s : Registry) : Prop :=
  ∀ ident, r.owner? path ident = s.owner? path ident

theorem owner?_reserve_of_ne (h : r.reserve c = .ok next) (hne : c.path ≠ path)
    (ident : String) : next.owner? path ident = r.owner? path ident := by
  rw [owner?_reserve h, owner?_singleton, if_neg (fun hc => hne hc.1), Option.or_none]

/-- Claims at other paths leave the owners at a path alone. -/
theorem owner?_reserveAll_of_ne (hne : ∀ c ∈ claims, c.path ≠ path) (r : Registry)
    (ident : String) : (r.reserveAll claims).1.owner? path ident = r.owner? path ident := by
  induction claims generalizing r with
  | nil => rfl
  | cons c rest ih =>
    cases h : r.reserve c with
    | error fault => rw [reserveAll_cons_error h]
    | ok next =>
      rw [reserveAll_cons_ok h, ih (fun d hd => hne d (List.mem_cons_of_mem c hd))]
      exact owner?_reserve_of_ne h (hne c List.mem_cons_self) ident

/-- A reservation looks at the owner of its own identifier only. -/
theorem reserve_sameAt {s : Registry} (h : SameAt c.path r s) :
    (∃ fault, r.reserve c = .error fault ∧ s.reserve c = .error fault) ∨
      (∃ r' s', r.reserve c = .ok r' ∧ s.reserve c = .ok s' ∧ SameAt c.path r' s') := by
  unfold reserve
  rw [h c.ident]
  cases s.owner? c.path c.ident with
  | none =>
    refine .inr ⟨r.grant c, s.grant c, rfl, rfl, ?_⟩
    intro ident
    rw [owner?_grant, owner?_grant, h ident]
  | some first =>
    by_cases horigin : first = c.origin
    · exact .inr ⟨r, s, if_pos horigin, if_pos horigin, h⟩
    · exact .inl ⟨_, if_neg horigin, if_neg horigin⟩

/-- Registries with the same owners at a path answer claims at it alike. -/
theorem reserveAll_sameAt {s : Registry} (hpath : ∀ c ∈ claims, c.path = path)
    (h : SameAt path r s) :
    (r.reserveAll claims).2 = (s.reserveAll claims).2 ∧
      SameAt path (r.reserveAll claims).1 (s.reserveAll claims).1 := by
  induction claims generalizing r s with
  | nil => exact ⟨rfl, h⟩
  | cons c rest ih =>
    have hc : c.path = path := hpath c List.mem_cons_self
    obtain ⟨fault, hr, hs⟩ | ⟨r', s', hr, hs, hnext⟩ := reserve_sameAt (c := c) (hc ▸ h)
    · rw [reserveAll_cons_error hr, reserveAll_cons_error hs]
      exact ⟨rfl, h⟩
    · rw [reserveAll_cons_ok hr, reserveAll_cons_ok hs]
      exact ih (fun d hd => hpath d (List.mem_cons_of_mem c hd)) (hc ▸ hnext)

/-! ### Claims of types and of services -/

theorem path_of_mem_typeClaims {index : TypeIndex} (hc : c ∈ typeClaims index path) :
    c.path = path := by
  simp only [typeClaims, messageClaim, enumClaims, List.mem_append, List.mem_map,
    List.mem_flatMap] at hc
  obtain ⟨_, _, rfl⟩ | ⟨_, _, _, _, rfl⟩ := hc <;> rfl

theorem path_of_mem_serviceClaims {s : NamedService} (hc : c ∈ serviceClaims path s) :
    c.path = path := by
  simp only [serviceClaims, List.mem_append, List.mem_map] at hc
  obtain ⟨_, _, rfl⟩ | ⟨_, _, rfl⟩ := hc <;> rfl

/-- An origin that stands for a message or an enum. -/
def IsTypeOrigin (origin : String) : Prop :=
  ∃ name, origin = "message " ++ name ∨ origin = "enum " ++ name

theorem isTypeOrigin_of_mem_typeClaims {index : TypeIndex} (hc : c ∈ typeClaims index path) :
    IsTypeOrigin c.origin := by
  simp only [typeClaims, messageClaim, enumClaims, List.mem_append, List.mem_map,
    List.mem_flatMap] at hc
  obtain ⟨m, _, rfl⟩ | ⟨e, _, _, _, rfl⟩ := hc
  · exact ⟨m.fullName, .inl rfl⟩
  · exact ⟨e.fullName, .inr rfl⟩

/-- Services and operations are told from types by the first letter of their origins. -/
theorem not_isTypeOrigin_of_mem_serviceClaims {s : NamedService}
    (hc : c ∈ serviceClaims path s) : ¬ IsTypeOrigin c.origin := by
  simp only [serviceClaims, List.mem_append, List.mem_map] at hc
  rintro ⟨name, h⟩
  obtain ⟨_, _, rfl⟩ | ⟨_, _, rfl⟩ := hc <;> rcases h with h | h <;>
    simpa [Service.operationOrigin, String.toList_append] using congrArg String.toList h

/-- The identifiers of the messages and enums generated into the package at a path. -/
def typeIdents (index : TypeIndex) (path : String) : List String :=
  (index.messagesAt path).map (·.goIdent) ++ (index.enumsAt path).flatMap (·.goIdents)

theorem idents_typeClaims (index : TypeIndex) (path : String) :
    (typeClaims index path).map (·.ident) = typeIdents index path := by
  rw [typeClaims, List.map_append, List.map_map, List.map_flatMap, typeIdents]
  refine congrArg _ (List.flatMap_congr fun e _ => ?_)
  rw [enumClaims, List.map_map]
  exact List.map_id _

theorem mem_typeIdents_iff (index : TypeIndex) (path ident : String) :
    ident ∈ typeIdents index path ↔
      (∃ m ∈ index.messages, m.goPackage.importPath = path ∧ m.goIdent = ident) ∨
        ∃ e ∈ index.enums, e.goPackage.importPath = path ∧ ident ∈ e.goIdents := by
  simp only [typeIdents, TypeIndex.messagesAt, TypeIndex.enumsAt, List.mem_append, List.mem_map,
    List.mem_flatMap, List.mem_mergeSort, List.mem_filter, beq_iff_eq, and_assoc]

/-! ### Types come first -/

/-- At every path either nothing is claimed, or every type identifier has a type as its
    owner. -/
def Seeded (index : TypeIndex) (r : Registry) : Prop :=
  ∀ path, (∀ ident, r.owner? path ident = none) ∨
    ∀ c ∈ typeClaims index path, ∃ origin, r.owner? path c.ident = some origin ∧
      IsTypeOrigin origin

theorem seeded_empty (index : TypeIndex) : Seeded index empty := fun _ => .inl fun _ => rfl

/-- After offering the types of a package, its type identifiers belong to types. -/
theorem Seeded.seed {index : TypeIndex} (h : Seeded index r) (path : String) :
    ∀ c ∈ typeClaims index path, ∃ origin, (r.seed index path).owner? path c.ident = some origin ∧
      IsTypeOrigin origin := by
  intro c hc
  rcases h path with hnone | hall
  · -- nothing was claimed at the path, so the first type with the identifier gets it
    have hpath := path_of_mem_typeClaims hc
    obtain ⟨origin, howner⟩ :=
      Option.isSome_iff_exists.mp (hpath ▸ owner?_isSome_of_mem hc)
    obtain ⟨d, hd, -, -, rfl⟩ := exists_claim_of_owner? howner
    refine ⟨d.origin, ?_, isTypeOrigin_of_mem_typeClaims hd⟩
    rw [owner?_seed, hnone, Option.none_or]
    exact howner
  · obtain ⟨origin, howner, horigin⟩ := hall c hc
    exact ⟨origin, extends_seed r index path path c.ident origin howner, horigin⟩

/-- Where types come first, an identifier that belongs to something else is not one of a
    type. -/
theorem Seeded.ident_not_mem {index : TypeIndex} (h : Seeded index r) (hc : r.Holds c)
    (horigin : ¬ IsTypeOrigin c.origin) : c.ident ∉ typeIdents index c.path := by
  intro hmem
  rw [← idents_typeClaims] at hmem
  obtain ⟨t, ht, hident⟩ := List.mem_map.mp hmem
  rcases h c.path with hnone | hall
  · exact nomatch (hnone c.ident).symm.trans hc
  · obtain ⟨origin, howner, htype⟩ := hall t ht
    rw [hident] at howner
    obtain rfl : origin = c.origin := Option.some.inj (howner.symm.trans hc)
    exact horigin htype

end GoBindings.Registry
