/-
  GoBindings/Proofs/UniqueIdentifiers.lean
  ========================================
  **Each Go package declares an identifier once.**

  The files of a response that belong to one Go package declare different
  identifiers, and none of those is an identifier of a message or an enum that is
  generated into the package. That holds for all targets together, whichever of them
  fail.

  Two facts carry the argument. The claims of everything published hold in the
  registry at the end of a run (`holds_registryAfter`), and no two of them are the
  same claim, because origins are full names (`nodup_serviceClaims`). Types keep
  their identifiers because they are offered to a package before anything else is
  claimed in it (`seeded_registryAfter`).
-/
import GoBindings.Proofs.Bindings
import Mathlib.Data.List.Flatten
import Mathlib.Data.List.Perm.Subperm

namespace GoBindings

/-! ### Claims differ -/

/-- The identifiers of a service differ in what stands around its name: all but the first two
    have different lengths. -/
theorem ServiceNames.nodup_ofName (name : String) :
    [(ofName name).serviceNameConst, (ofName name).client, (ofName name).clientConstructor,
      (ofName name).handler, (ofName name).register].Nodup := by
  have hconst : (ofName name).serviceNameConst.length = (Go.camelCase name).length + 11 :=
    String.length_append _ _
  have hclient : (ofName name).client.length = (Go.camelCase name).length + 11 :=
    String.length_append _ _
  have hconstructor :
      (ofName name).clientConstructor.length = 3 + (Go.camelCase name).length + 11 := by
    rw [ofName, String.length_append, String.length_append]; rfl
  have hhandler : (ofName name).handler.length = (Go.camelCase name).length + 19 :=
    String.length_append _ _
  have hregister : (ofName name).register.length = 8 + (Go.camelCase name).length + 19 := by
    rw [ofName, String.length_append, String.length_append]; rfl
  have hfirst : (ofName name).serviceNameConst ≠ (ofName name).client := by
    simp [ofName]
  have hlength : ∀ {a b : String}, a.length ≠ b.length → a ≠ b :=
    fun h hab => h (congrArg String.length hab)
  simp only [List.nodup_cons, List.mem_cons, List.not_mem_nil, or_false, not_or,
    not_false_eq_true, List.nodup_nil, and_true]
  refine ⟨⟨hfirst, ?_, ?_, ?_⟩, ⟨?_, ?_, ?_⟩, ⟨?_, ?_⟩, ?_⟩
  all_goals
    refine hlength ?_
    omega

theorem Service.operationOrigin_eq (s : Service) (op : Operation) :
    s.operationOrigin op = "operation " ++ (s.fullName ++ "." ++ op.methodName) := by
  simp only [operationOrigin, String.append_assoc]

namespace Registry

theorem origin_of_mem_serviceClaims {path : String} {c : Claim}
    {n : NamedService} (hc : c ∈ serviceClaims path n) :
    c.origin = "service " ++ n.service.fullName ∨
      ∃ m ∈ n.methodNames, c.origin = "operation " ++ m := by
  simp only [serviceClaims, List.mem_append, List.mem_map] at hc
  obtain ⟨_, _, rfl⟩ | ⟨op, hop, rfl⟩ := hc
  · exact .inl rfl
  · exact .inr ⟨_, List.mem_map_of_mem hop, Service.operationOrigin_eq _ _⟩

theorem service_ne_operation (a b : String) : "service " ++ a ≠ "operation " ++ b := by
  intro h
  simpa [String.toList_append] using congrArg String.toList h

theorem nodup_serviceClaims {n : NamedService}
    (hnames : n.names = ServiceNames.ofName n.service.name) (hmethods : n.methodNames.Nodup)
    (path : String) : (serviceClaims path n).Nodup := by
  have horigins : n.operations.map (fun op => n.service.operationOrigin op.operation) =
      n.methodNames.map ("operation " ++ ·) := by
    rw [NamedService.methodNames, List.map_map]
    exact List.map_congr_left fun op _ => Service.operationOrigin_eq n.service op.operation
  rw [serviceClaims, List.nodup_append]
  refine ⟨?_, ?_, ?_⟩
  · refine List.Nodup.map (fun a b h => (Claim.mk.inj h).2.1) ?_
    rw [hnames]
    exact ServiceNames.nodup_ofName n.service.name
  · refine List.Nodup.of_map (·.origin) ?_
    rw [List.map_map]
    exact horigins ▸ hmethods.map fun a b h => (String.append_right_inj "operation ").mp h
  · intro a ha b hb hab
    obtain ⟨_, -, rfl⟩ := List.mem_map.mp ha
    obtain ⟨_, -, rfl⟩ := List.mem_map.mp hb
    exact service_ne_operation _ _
      ((Claim.mk.inj hab).2.2.trans (Service.operationOrigin_eq _ _))

/-- No claim is made twice for services with different full names and methods. -/
theorem nodup_flatMap_serviceClaims {services : List NamedService}
    (hnames : ∀ n ∈ services, n.names = ServiceNames.ofName n.service.name)
    (hservices : (services.map (·.service.fullName)).Nodup)
    (hmethods : (services.flatMap (·.methodNames)).Nodup) (path : String) :
    (services.flatMap (serviceClaims path)).Nodup := by
  induction services with
  | nil => exact List.nodup_nil
  | cons n rest ih =>
    rw [List.map_cons, List.nodup_cons] at hservices
    rw [List.flatMap_cons, List.nodup_append] at hmethods
    rw [List.flatMap_cons, List.nodup_append]
    refine ⟨nodup_serviceClaims (hnames n List.mem_cons_self) hmethods.1 path,
      ih (fun m hm => hnames m (List.mem_cons_of_mem n hm)) hservices.2 hmethods.2.1, ?_⟩
    rintro c hc _ hlater rfl
    obtain ⟨m, hm, hcm⟩ := List.mem_flatMap.mp hlater
    -- the origin would be the full name of two services or of two methods
    rcases origin_of_mem_serviceClaims hc with hn | ⟨x, hx, hn⟩
    · rcases origin_of_mem_serviceClaims hcm with hs | ⟨y, -, hs⟩
      · have heq := (String.append_right_inj "service ").mp (hn.symm.trans hs)
        exact hservices.1 (heq ▸ List.mem_map_of_mem hm)
      · exact service_ne_operation _ _ (hn.symm.trans hs)
    · rcases origin_of_mem_serviceClaims hcm with hs | ⟨y, hy, hs⟩
      · exact service_ne_operation _ _ (hs.symm.trans hn)
      · have heq := (String.append_right_inj "operation ").mp (hn.symm.trans hs)
        exact hmethods.2.2 x hx y (List.mem_flatMap_of_mem hm hy) heq

end Registry

/-- Lists without repetition that are taken from a list give nothing twice that the list does
    not give twice. -/
theorem nodup_flatMap_of_subset {α β : Type} {xs ys : List α} {f : α → List β} (hxs : xs.Nodup)
    (hsub : xs ⊆ ys) (hys : (ys.flatMap f).Nodup) : (xs.flatMap f).Nodup := by
  obtain ⟨zs, hperm, hsublist⟩ := List.subperm_of_subset hxs hsub
  have hzs : (zs.flatMap f).Nodup := hys.sublist (hsublist.flatMap f)
  exact (hperm.flatMap_right f).nodup_iff.mp hzs

namespace Environment

variable {env : Environment} {r : Registry}

/-! ### What a run keeps true -/

theorem extends_settle (env : Environment) (r : Registry) (target : String) :
    r.Extends (env.settle r target).2 := by
  obtain hsame | ⟨p, -, -, hclaim⟩ := settle_cases env r target
  · rw [hsame]
    exact Registry.Extends.refl r
  · exact Draft.extends_claim hclaim

theorem seeded_settle (h : r.Seeded env.index) (target : String) :
    (env.settle r target).2.Seeded env.index := by
  obtain hsame | ⟨p, -, -, hclaim⟩ := settle_cases env r target
  · rwa [hsame]
  · exact Draft.seeded_claim h hclaim

theorem extends_registryAfter (env : Environment) (r : Registry) (targets : List String) :
    r.Extends (env.registryAfter r targets) :=
  registryAfter_induction (P := r.Extends)
    (fun next target hnext => hnext.trans (extends_settle env next target))
    (Registry.Extends.refl r) targets

/-- Types stay in front of services to the end of a run. -/
theorem seeded_registryAfter (h : r.Seeded env.index) (targets : List String) :
    (env.registryAfter r targets).Seeded env.index :=
  registryAfter_induction (P := (·.Seeded env.index))
    (fun _ target hnext => seeded_settle hnext target) h targets

/-- The claims of everything that was published hold at the end of the run. -/
theorem holds_registryAfter (env : Environment) (r : Registry) (targets : List String) :
    ∀ p ∈ env.published r targets, ∀ c ∈ p.draft.claims,
      (env.registryAfter r targets).Holds c := by
  induction targets generalizing r with
  | nil => exact fun p hp => absurd hp List.not_mem_nil
  | cons target rest ih =>
    intro p hp c hc
    rcases mem_published_cons.mp hp with hfirst | hrest
    · -- granted here, and owners stay owners
      have hclaim := (publication?_of_settle hfirst).2
      exact (Draft.holds_of_claim hclaim c hc).mono (extends_registryAfter env _ rest)
    · exact ih _ p hrest c hc

/-! ### Claims of a run -/

theorem sources_published (env : Environment) (r : Registry) {targets : List String}
    (htargets : targets.Nodup) :
    ((env.published r targets).map (·.draft.source)).Nodup ∧
      (env.published r targets).map (·.draft.source) ⊆ env.files := by
  constructor
  · refine List.Nodup.of_map (·.name) ?_
    rw [List.map_map]
    exact htargets.sublist (names_published_sublist env r targets)
  · intro f hf
    obtain ⟨p, hp, rfl⟩ := List.mem_map.mp hf
    obtain ⟨target, -, hpublication⟩ := exists_of_mem_published hp
    exact List.mem_of_find?_eq_some (publication?_ok hpublication).1

theorem fullNames_eq_of_resolves {f : Descriptor.File} {declared : List Descriptor.Service}
    {named : List NamedService} (h : List.Forall₂ (Resolves f) declared named) :
    named.map (·.service.fullName) = declared.map (·.fullName f) ∧
      named.flatMap (·.methodNames) = declared.flatMap (·.methodNames f) ∧
      ∀ n ∈ named, n.names = ServiceNames.ofName n.service.name := by
  induction h with
  | nil => exact ⟨rfl, rfl, fun n hn => absurd hn List.not_mem_nil⟩
  | cons hfirst _ ih =>
    obtain ⟨hnames, hmethods, hof⟩ := ih
    refine ⟨?_, ?_, List.forall_mem_cons.mpr ⟨hfirst.names, hof⟩⟩
    · rw [List.map_cons, List.map_cons, hfirst.fullName, hnames]
    · rw [List.flatMap_cons, List.flatMap_cons, hfirst.methodNames, hmethods]

theorem names_of_mem_published {targets : List String} {p : Publication}
    (hp : p ∈ env.published r targets) :
    p.draft.services.map (·.service.fullName) = p.draft.source.serviceNames ∧
      p.draft.services.flatMap (·.methodNames) = p.draft.source.methodNames ∧
      ∀ n ∈ p.draft.services, n.names = ServiceNames.ofName n.service.name := by
  obtain ⟨target, -, hpublication⟩ := exists_of_mem_published hp
  exact fullNames_eq_of_resolves (draft_ok (publication?_ok hpublication).2.1).2.2.2

/-- Of the claims that were granted to one package, no two are the same. -/
theorem nodup_claims {targets : List String} {path : String} {ps : List Publication}
    (hservices : (env.files.flatMap (·.serviceNames)).Nodup)
    (hmethods : (env.files.flatMap (·.methodNames)).Nodup) (htargets : targets.Nodup)
    (hps : ps.Sublist (env.published r targets))
    (hpath : ∀ p ∈ ps, p.draft.package.importPath = path) :
    (ps.flatMap (·.draft.claims)).Nodup := by
  have hnames := fun p hp => names_of_mem_published (hps.subset (a := p) hp)
  obtain ⟨hnodup, hsubset⟩ := sources_published env r htargets
  have hsources : (ps.map (·.draft.source)).Nodup := hnodup.sublist (hps.map _)
  have hfiles : ps.map (·.draft.source) ⊆ env.files := fun f hf =>
    hsubset ((hps.map _).subset hf)
  have hclaims : ps.flatMap (·.draft.claims) =
      (ps.flatMap (·.draft.services)).flatMap (Registry.serviceClaims path) := by
    rw [List.flatMap_assoc]
    exact List.flatMap_congr fun p hp => by rw [Draft.claims, hpath p hp]
  rw [hclaims]
  -- a source is published once, so its names are taken from those of all files once
  refine Registry.nodup_flatMap_serviceClaims ?_ ?_ ?_ path
  · intro n hn
    obtain ⟨p, hp, hn⟩ := List.mem_flatMap.mp hn
    exact (hnames p hp).2.2 n hn
  · have hall := nodup_flatMap_of_subset hsources hfiles hservices
    rw [List.flatMap_map] at hall
    rw [List.map_flatMap, List.flatMap_congr fun p hp => (hnames p hp).1]
    exact hall
  · have hall := nodup_flatMap_of_subset hsources hfiles hmethods
    rw [List.flatMap_map] at hall
    rw [List.flatMap_assoc, List.flatMap_congr fun p hp => (hnames p hp).2.1]
    exact hall

theorem declared_perm {targets : List String} {ps : List Publication}
    (hps : ps ⊆ env.published r targets) :
    (ps.flatMap (·.document.declared)).Perm
      ((ps.flatMap (·.draft.claims)).map (·.ident)) := by
  rw [List.map_flatMap]
  refine List.Perm.flatMap_left ps fun p hp => ?_
  obtain ⟨target, -, hpublication⟩ := exists_of_mem_published (hps hp)
  exact declared_perm_claims (document_ok (publication?_ok hpublication).2.2)
    p.draft.package.importPath

/-- What was published in one package declares every identifier once, and none of a type. -/
theorem nodup_declared_at {targets : List String} {path : String} {ps : List Publication}
    (hseeded : r.Seeded env.index) (hservices : (env.files.flatMap (·.serviceNames)).Nodup)
    (hmethods : (env.files.flatMap (·.methodNames)).Nodup) (htargets : targets.Nodup)
    (hps : ps.Sublist (env.published r targets))
    (hpath : ∀ p ∈ ps, p.draft.package.importPath = path) :
    (ps.flatMap (·.document.declared)).Nodup ∧
      ∀ ident ∈ ps.flatMap (·.document.declared), ident ∉ Registry.typeIdents env.index path := by
  have hperm := declared_perm hps.subset
  have hclaims := nodup_claims hservices hmethods htargets hps hpath
  have hlog : ∀ c ∈ ps.flatMap (·.draft.claims), c.path = path ∧
      (env.registryAfter r targets).Holds c ∧ ¬ Registry.IsTypeOrigin c.origin := by
    intro c hc
    obtain ⟨p, hp, hc⟩ := List.mem_flatMap.mp hc
    exact ⟨(Draft.path_of_mem_claims hc).trans (hpath p hp),
      holds_registryAfter env r targets p (hps.subset hp) c hc,
      Draft.not_isTypeOrigin_of_mem_claims hc⟩
  constructor
  · exact hperm.nodup_iff.mpr (Registry.nodup_idents_of_holds hclaims
      (fun c hc => (hlog c hc).1) fun c hc => (hlog c hc).2.1)
  · intro ident hident
    obtain ⟨c, hc, rfl⟩ := List.mem_map.mp (hperm.mem_iff.mp hident)
    obtain ⟨rfl, hholds, horigin⟩ := hlog c hc
    exact (seeded_registryAfter hseeded targets).ident_not_mem hholds horigin

end Environment

/-! ### Requests -/

namespace Request

/-- The declarations of all files of a request, if they can be read. -/
def sources (request : Request) : List Descriptor.File :=
  (readFiles request.files).toOption.getD []

/-- What a request publishes in the package at a path. -/
def publishedAt (request : Request) (path : String) : List Environment.Publication :=
  request.published.filter (·.draft.package.importPath == path)

/-- The identifiers of types in the package at a path, for all files of a request. -/
def typeIdents (request : Request) (path : String) : List String :=
  match request.environment? with
  | .ok env => Registry.typeIdents env.index path
  | .error _ => []

theorem sources_eq {request : Request} {env : Environment}
    (h : request.environment? = .ok env) : request.sources = env.files := by
  obtain ⟨settings, -, h⟩ := Traced.except_bind_eq_ok.mp h
  obtain ⟨files, hfiles, h⟩ := Traced.except_bind_eq_ok.mp h
  rw [sources, hfiles, ← Except.ok.inj h]
  rfl

/-- The identifiers that the files of a response declare in one Go package differ from each
    other and from those of the types of that package. -/
theorem nodup_declared {request : Request} {response : Response}
    (hresponse : (generate request).outcome = .ok response)
    (hservices : (request.sources.flatMap (·.serviceNames)).Nodup)
    (hmethods : (request.sources.flatMap (·.methodNames)).Nodup)
    (htargets : request.targets.Nodup) (path : String) :
    (response.files = request.published.map fun p =>
        ⟨some p.draft.name, none, some p.document.render⟩) ∧
      ((request.publishedAt path).flatMap (·.document.declared)).Nodup ∧
      ∀ ident ∈ (request.publishedAt path).flatMap (·.document.declared),
        ident ∉ request.typeIdents path := by
  refine ⟨files_eq_published hresponse, ?_⟩
  cases henv : request.environment? with
  | error fault =>
    have hnone : request.publishedAt path = [] := by rw [publishedAt, published, henv]; rfl
    rw [hnone]
    exact ⟨List.nodup_nil, fun ident hident => absurd hident List.not_mem_nil⟩
  | ok env =>
    rw [sources_eq henv] at hservices hmethods
    have hpublished : request.published = env.published Registry.empty request.targets := by
      rw [published, henv]
    have hps : (request.publishedAt path).Sublist
        (env.published Registry.empty request.targets) :=
      hpublished ▸ List.filter_sublist
    have hpath : ∀ p ∈ request.publishedAt path, p.draft.package.importPath = path :=
      fun p hp => eq_of_beq (List.mem_filter.mp hp).2
    have htypes : request.typeIdents path = Registry.typeIdents env.index path := by
      rw [typeIdents, henv]
    rw [htypes]
    exact Environment.nodup_declared_at (Registry.seeded_empty env.index) hservices hmethods
      htargets hps hpath

/-- Two files for one Go package. -/
def shop : Request where
  targets := ["shop.proto", "returns.proto"]
  parameter := none
  compilerVersion := none
  files :=
    [sampleFile "shop.proto" "shop" "example.com/shop" ["Cart"]
        [("Shop", [("Order", ".shop.Cart")])],
      sampleFile "returns.proto" "shop" "example.com/shop" []
        [("Returns", [("Order", ".shop.Cart")])]]

theorem nodup_declared_shop :
    (shop.publishedAt "example.com/shop").length = 2 ∧
      ((shop.publishedAt "example.com/shop").flatMap (·.document.declared)).Nodup ∧
      ∀ ident ∈ (shop.publishedAt "example.com/shop").flatMap (·.document.declared),
        ident ∉ shop.typeIdents "example.com/shop" := by
  have hreadable : shop.environment?.isOk := by decide +kernel
  cases henv : shop.environment? with
  | error fault => rw [henv] at hreadable; exact nomatch hreadable
  | ok env =>
    have hall := nodup_declared (generate_outcome henv) (by decide +kernel) (by decide +kernel)
      (by decide) "example.com/shop"
    exact ⟨by decide +kernel, hall.2⟩

end Request

end GoBindings
