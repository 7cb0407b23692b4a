/-
  GoBindings/Proofs/AliasClashes.lean
  ===================================
  **Aliases next to package-level identifiers.**

  Aliases and package-level identifiers are handed out apart from each other, and neither
  looks at what the other has. What keeps them apart is spelling. No identifier that is
  derived for a type, a service or an operation begins with a small ASCII letter, and the
  registry never has another one (`Registry.Exported`). An alias begins as the name of its
  package does. So an alias can only clash where a package of messages has an unusual name;
  `Request.orders` is such a case.
-/
import GoBindings.Proofs.Bindings
import GoBindings.Proofs.CamelCase
import GoBindings.Proofs.UniqueIdentifiers

namespace GoBindings

open Go (startsSmall startsSmall_append startsSmall_append_of_ne startsSmall_camelCase)

/-! ### Identifiers of types and services -/

namespace TypeIndex

theorem startsSmall_enumIdents {parent : Option String} {e : Descriptor.Enum} :
    ∀ ident ∈ enumIdents parent e, startsSmall ident = false := by
  have hident := startsSmall_camelCase (Descriptor.pathUnder parent e.name)
  have hscope : startsSmall ((parent.map Go.camelCase).getD
      (Go.camelCase (Descriptor.pathUnder parent e.name))) = false := by
    cases parent with
    | none => exact hident
    | some outer => exact startsSmall_camelCase outer
  simp only [enumIdents, List.forall_mem_cons, List.forall_mem_map]
  refine ⟨hident, startsSmall_append hident rfl, startsSmall_append hident rfl, ?_⟩
  intro v _
  rw [String.append_assoc]
  refine startsSmall_append hscope ?_
  rw [startsSmall_append_of_ne (by decide)]
  rfl

theorem startsSmall_typeIdents (files : List Descriptor.File) (settings : Settings)
    (path : String) :
    ∀ ident ∈ Registry.typeIdents (build files settings) path, startsSmall ident = false := by
  intro ident hident
  rw [Registry.mem_typeIdents_iff] at hident
  rcases hident with ⟨m, hm, -, rfl⟩ | ⟨e, he, -, hident⟩
  · obtain ⟨f, -, path, rfl⟩ := eq_messageRef_of_mem_build hm
    exact startsSmall_camelCase path
  · obtain ⟨f, -, he⟩ := List.mem_flatMap.mp (mem_of_mem_firstBy he)
    obtain ⟨declaration, -, href⟩ := List.mem_filterMap.mp he
    cases declaration with
    | message => exact nomatch href
    | enumeration parent e =>
      obtain rfl := Option.some.inj href
      exact startsSmall_enumIdents ident hident

end TypeIndex

theorem Registry.startsSmall_serviceClaims (path : String) (settings : Settings) (s : Service) :
    ∀ c ∈ serviceClaims path (s.named settings), startsSmall c.ident = false := by
  have hname := startsSmall_camelCase s.name
  simp only [serviceClaims, Service.named, Service.namesOf, ServiceNames.ofName,
    OperationNames.ofMethod, List.forall_mem_append, List.map_cons, List.forall_mem_cons,
    List.map_map, List.forall_mem_map]
  refine ⟨⟨startsSmall_append hname rfl, startsSmall_append hname rfl, ?_,
    startsSmall_append hname rfl, ?_, List.forall_mem_nil _⟩, ?_⟩
  · rw [String.append_assoc, startsSmall_append_of_ne (by decide)]
    rfl
  · rw [String.append_assoc, startsSmall_append_of_ne (by decide)]
    rfl
  · intro op _
    exact startsSmall_append (startsSmall_append hname (startsSmall_camelCase op.methodName)) rfl

/-! ### What the registry has -/

namespace Registry

variable {r next : Registry} {c : Claim} {claims : List Claim}

/-- No identifier that has an owner begins with a small letter. -/
def Exported (r : Registry) : Prop :=
  ∀ path ident origin, r.owner? path ident = some origin → startsSmall ident = false

theorem exported_empty : empty.Exported := fun _ _ _ h => nomatch h

/-- Claims behind a log add no owners but their own. -/
theorem Exported.or (h : r.Exported) (hclaims : ∀ c ∈ claims, startsSmall c.ident = false)
    (hnext : ∀ path ident, next.owner? path ident =
      (r.owner? path ident).or (owner? ⟨claims⟩ path ident)) : next.Exported := by
  intro path ident origin howner
  rw [hnext, Option.or_eq_some_iff] at howner
  rcases howner with hold | ⟨-, hnew⟩
  · exact h path ident origin hold
  · obtain ⟨c, hc, -, rfl, -⟩ := exists_claim_of_owner? hnew
    exact hclaims c hc

theorem Exported.reserveAll (h : r.Exported)
    (hclaims : ∀ c ∈ claims, startsSmall c.ident = false) : (r.reserveAll claims).1.Exported := by
  induction claims generalizing r with
  | nil => exact h
  | cons first rest ih =>
    cases hfirst : r.reserve first with
    | error fault =>
      rw [reserveAll_cons_error hfirst]
      exact h
    | ok next =>
      rw [List.forall_mem_cons] at hclaims
      have hsingle : ∀ c ∈ [first], startsSmall c.ident = false :=
        List.forall_mem_singleton.mpr hclaims.1
      rw [reserveAll_cons_ok hfirst]
      exact ih (h.or hsingle (owner?_reserve hfirst)) hclaims.2

end Registry

namespace Environment

variable {env : Environment} {r : Registry}

theorem startsSmall_claims {d : Draft} (hdraft : (env.draft d.source).outcome = .ok (some d)) :
    ∀ c ∈ d.claims, startsSmall c.ident = false := by
  intro c hc
  obtain ⟨n, hn, hc⟩ := List.mem_flatMap.mp hc
  rw [(draft_services hdraft).1] at hn
  obtain ⟨s, -, rfl⟩ := List.mem_map.mp hn
  exact Registry.startsSmall_serviceClaims _ env.settings _ c hc

theorem exported_settle (hindex : env.Indexed) (h : r.Exported) (target : String) :
    (env.settle r target).2.Exported := by
  obtain hsame | ⟨p, -, hpublication, hclaim⟩ := settle_cases env r target
  · rwa [hsame]
  · have hdraft := (publication?_ok hpublication).2.1
    have htypes : ∀ c ∈ Registry.typeClaims env.index p.draft.package.importPath,
        startsSmall c.ident = false := by
      intro c hc
      refine TypeIndex.startsSmall_typeIdents env.files env.settings
        p.draft.package.importPath c.ident ?_
      rw [← hindex, ← Registry.idents_typeClaims]
      exact List.mem_map_of_mem hc
    have hseeded := h.or htypes (Registry.owner?_seed r env.index p.draft.package.importPath)
    have hreserved := hseeded.reserveAll (startsSmall_claims hdraft)
    rwa [Draft.claim_eq_ok hclaim] at hreserved

/-- Whatever targets are dealt with, all identifiers that the registry has are exported. -/
theorem exported_registryAfter (hindex : env.Indexed) (h : r.Exported) (targets : List String) :
    (env.registryAfter r targets).Exported :=
  registryAfter_induction (P := (·.Exported))
    (fun _ target hnext => exported_settle hindex hnext target) h targets

end Environment

/-! ### Aliases -/

/-- An alias begins as the name of its package does. -/
theorem startsSmall_of_candidate {name : String} {n : Nat}
    (h : startsSmall (Go.Imports.candidate name n) = false) : startsSmall name = false := by
  cases n with
  | zero => exact h
  | succ n =>
    by_cases hempty : name = ""
    · rw [hempty]
      rfl
    · rwa [Go.Imports.candidate, startsSmall_append_of_ne hempty] at h

namespace Request

/-- Where an alias of a returned file is an identifier of the file's own package, after any
    number of targets, it is not an alias of the framework and does not begin with a small
    letter. It was made from the name of the package of a message that a method takes or
    gives, and neither does that name. -/
theorem alias_clash {request : Request} {response : Response}
    (hresponse : (generate request).outcome = .ok response) :
    (response.files = request.published.map fun p =>
        ⟨some p.draft.name, none, some p.document.render⟩) ∧
      ∀ p ∈ request.published, ∃ env, request.environment? = .ok env ∧
        ∀ entry ∈ p.document.imports.entries, ∀ count,
          ((env.registryAfter Registry.empty (request.targets.take count)).contains
              p.draft.package.importPath entry.2 ∨
            entry.2 ∈ Registry.typeIdents env.index p.draft.package.importPath) →
          entry ∉ Go.Imports.framework.entries ∧ startsSmall entry.2 = false ∧
            ∃ m ∈ env.messagesFor p.draft.source, m.goPackage.importPath = entry.1 ∧
              entry.1 ≠ p.draft.package.importPath ∧ startsSmall m.goPackage.name = false ∧
              ∃ n, entry.2 = Go.Imports.candidate m.goPackage.name n := by
  refine ⟨files_eq_published hresponse, fun p hp => ?_⟩
  obtain ⟨env, henv, hindex, -, -, hwritten⟩ := written_of_mem_published hp
  refine ⟨env, henv, fun entry hentry count hclash => ?_⟩
  have hsmall : startsSmall entry.2 = false := by
    rcases hclash with hclaimed | htype
    · obtain ⟨origin, howner⟩ := Option.isSome_iff_exists.mp hclaimed
      exact Environment.exported_registryAfter hindex Registry.exported_empty _ _ _ _ howner
    · rw [hindex] at htype
      exact TypeIndex.startsSmall_typeIdents _ _ _ _ htype
  have hframework : entry ∉ Go.Imports.framework.entries := by
    intro hmem
    have husual : ∀ entry ∈ Go.Imports.framework.entries, startsSmall entry.2 := by
      rw [Go.Imports.entries_framework]
      decide
    exact absurd (husual entry hmem) (by rw [hsmall]; decide)
  refine ⟨hframework, hsmall, ?_⟩
  obtain ⟨mapped, -, hmessages, hextends⟩ := hwritten.mapped
  rcases hextends.entries entry hentry with hold | ⟨m, hm, hforeign, hpath, n, halias⟩
  · exact absurd hold hframework
  · refine ⟨m.message, hmessages ▸ List.mem_map_of_mem hm, hpath, ?_, ?_, n, halias⟩
    · exact fun hhome => hforeign (hpath.trans hhome)
    · exact startsSmall_of_candidate (halias ▸ hsmall)

/-- A package called `Order` next to a message called `Order`. -/
def orders : Request where
  targets := ["shop.proto"]
  parameter := none
  compilerVersion := none
  files :=
    [sampleFile "order.proto" "order" "example.com/Order" ["Item"] [],
      sampleFile "shop.proto" "shop" "example.com/shop" ["Order"]
        [("Shop", [("Place", ".order.Item")])]]

theorem published_orders :
    ∃ p ∈ orders.published, ∃ env, orders.environment? = .ok env ∧
      ("example.com/Order", "Order") ∈ p.document.imports.entries ∧
        (env.registryAfter Registry.empty (orders.targets.take 1)).contains
            p.draft.package.importPath "Order" ∧
          "Order" ∈ Registry.typeIdents env.index p.draft.package.importPath := by
  have hrun : orders.environment?.toOption.any fun env =>
      (env.published Registry.empty orders.targets).any fun p =>
        p.document.imports.entries.contains ("example.com/Order", "Order") &&
          ((env.registryAfter Registry.empty (orders.targets.take 1)).contains
              p.draft.package.importPath "Order" &&
            (Registry.typeIdents env.index p.draft.package.importPath).contains "Order") := by
    decide +kernel
  cases henv : orders.environment? with
  | error fault =>
    rw [henv] at hrun
    exact nomatch hrun
  | ok env =>
    rw [henv] at hrun
    obtain ⟨p, hp, hclash⟩ := List.any_eq_true.mp hrun
    simp only [Bool.and_eq_true, List.contains_iff_mem] at hclash
    refine ⟨p, ?_, env, rfl, hclash⟩
    rwa [published, henv]

/-- The package of the file declares `Order`, and the file imports another one by that name. -/
theorem orders_alias_clash :
    ∃ response, (generate orders).outcome = .ok response ∧
      ∃ p ∈ orders.published, ∃ env, orders.environment? = .ok env ∧
        ("example.com/Order", "Order") ∈ p.document.imports.entries ∧
          (env.registryAfter Registry.empty (orders.targets.take 1)).contains
              p.draft.package.importPath "Order" ∧
            "Order" ∈ Registry.typeIdents env.index p.draft.package.importPath := by
  obtain ⟨p, hp, env, henv, hclash⟩ := published_orders
  exact ⟨_, generate_outcome henv, p, hp, env, henv, hclash⟩

theorem alias_clash_orders :
    ∃ p ∈ orders.published, ∃ env, orders.environment? = .ok env ∧
      ("example.com/Order", "Order") ∉ Go.Imports.framework.entries ∧
        startsSmall "Order" = false ∧
          ∃ m ∈ env.messagesFor p.draft.source, m.goPackage.importPath = "example.com/Order" ∧
            "example.com/Order" ≠ p.draft.package.importPath ∧
            startsSmall m.goPackage.name = false ∧
            ∃ n, "Order" = Go.Imports.candidate m.goPackage.name n := by
  obtain ⟨p, hp, env, henv, hentry, hclaimed, -⟩ := published_orders
  obtain ⟨env', henv', hall⟩ := (alias_clash (generate_outcome henv)).2 p hp
  obtain rfl : env' = env := Except.ok.inj (henv'.symm.trans henv)
  exact ⟨p, hp, env', henv', hall _ hentry 1 (.inl hclaimed)⟩

end Request

end GoBindings
