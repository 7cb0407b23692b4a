/-
  GoBindings/Proofs/Repetitions.lean
  ==================================
  **When a document declares an identifier twice.**

  The registry grants a claim again to the origin that has it, so a document can only repeat
  an identifier for one and the same origin. The claims of a document are those of its services
  and those of its operations. The former differ exactly if the names of the services do, the
  latter exactly if no two methods have one full name and one constant. A service that is
  declared twice is granted everything twice.
-/
import GoBindings.Proofs.Bindings
import GoBindings.Proofs.CamelCase
import GoBindings.Proofs.UniqueIdentifiers

namespace GoBindings

namespace Descriptor

theorem qualify_injective (scope : String) : Function.Injective (qualify scope) := by
  intro a b h
  unfold qualify at h
  split at h
  case isTrue => exact h
  case isFalse => exact (String.append_right_inj _).mp h

/-- The constant and the full name of each method of a service. -/
def Service.operationKeys (f : File) (s : Service) : List (String × String) :=
  s.methods.map fun m =>
    (Go.camelCase s.name ++ Go.camelCase m.name ++ "OperationName", s.fullName f ++ "." ++ m.name)

/-- The constant and the full name of each method of a file. -/
def File.operationKeys (f : File) : List (String × String) :=
  f.services.flatMap (·.operationKeys f)

/-- If no service has a dot in its name, the full name of a method tells its service. -/
theorem File.nodup_operationKeys {f : File} (hservices : (f.services.map (·.name)).Nodup)
    (hmethods : ∀ s ∈ f.services, (s.methods.map (·.name)).Nodup)
    (hdots : ∀ s ∈ f.services, '.' ∉ s.name.toList) : f.operationKeys.Nodup := by
  have hfull : ∀ s : Service, ∀ key ∈ s.operationKeys f, ∃ method,
      key.2 = qualify f.package (s.name ++ "." ++ method) := by
    intro s key hkey
    obtain ⟨m, -, rfl⟩ := List.mem_map.mp hkey
    refine ⟨m.name, ?_⟩
    unfold Service.fullName qualify
    split <;> simp [String.append_assoc]
  rw [operationKeys, List.nodup_flatMap]
  constructor
  · intro s hs
    refine List.Nodup.of_map Prod.snd ?_
    rw [Service.operationKeys, List.map_map]
    have hnames := (hmethods s hs).map (f := fun name => s.fullName f ++ "." ++ name)
      fun a b h => (String.append_right_inj _).mp h
    rwa [List.map_map] at hnames
  · have hpairwise : f.services.Pairwise fun s t => s.name ≠ t.name :=
      List.pairwise_map.mp hservices
    refine hpairwise.imp_of_mem ?_
    intro s t hs ht hne key hkey hkey'
    obtain ⟨method, hmethod⟩ := hfull s key hkey
    obtain ⟨other, hother⟩ := hfull t key hkey'
    have heq := Descriptor.qualify_injective f.package (hmethod.symm.trans hother)
    have hlists := congrArg String.toList heq
    simp only [String.toList_append, List.append_assoc] at hlists
    have hcut := Text.append_cons_inj (hdots s hs) (hdots t ht) hlists
    exact hne (String.toList_inj.mp hcut.1)

end Descriptor

/-! ### Claims of a file -/

namespace Registry

/-- The claims for a service itself. -/
def ownClaims (path : String) (f : Descriptor.File) (s : Descriptor.Service) : List Claim :=
  [(ServiceNames.ofName s.name).serviceNameConst, (ServiceNames.ofName s.name).client,
      (ServiceNames.ofName s.name).clientConstructor, (ServiceNames.ofName s.name).handler,
      (ServiceNames.ofName s.name).register].map fun ident =>
    ⟨path, ident, "service " ++ s.fullName f⟩

/-- The claim for an operation, by its constant and its full name. -/
def operationClaim (path : String) (key : String × String) : Claim :=
  ⟨path, key.1, "operation " ++ key.2⟩

theorem operationClaim_injective (path : String) : Function.Injective (operationClaim path) := by
  intro a b h
  obtain ⟨-, hident, horigin⟩ := Claim.mk.inj h
  exact Prod.ext hident ((String.append_right_inj "operation ").mp horigin)

theorem serviceClaims_namedService (env : Environment) (path : String) (f : Descriptor.File)
    (s : Descriptor.Service) :
    serviceClaims path (env.namedService f s) =
      ownClaims path f s ++ (s.operationKeys f).map (operationClaim path) := by
  simp only [serviceClaims, Environment.namedService, Service.named, Descriptor.Service.toService,
    Descriptor.Service.operationKeys, List.map_map]
  refine congrArg₂ _ rfl (List.map_congr_left fun m _ => ?_)
  exact congrArg (Claim.mk path _) (Service.operationOrigin_eq _ _)

/-- The claims for services themselves differ exactly if the services have different names. -/
theorem nodup_ownClaims_iff (path : String) (f : Descriptor.File) :
    (f.services.flatMap (ownClaims path f)).Nodup ↔ (f.services.map (·.name)).Nodup := by
  constructor
  · intro h
    have hconstants : (f.services.map fun s => (⟨path, (ServiceNames.ofName s.name).serviceNameConst,
        "service " ++ s.fullName f⟩ : Claim)).Sublist (f.services.flatMap (ownClaims path f)) := by
      rw [List.map_eq_flatMap]
      exact List.Sublist.flatMap_right _ fun s _ => List.singleton_sublist.mpr List.mem_cons_self
    refine List.Nodup.of_map (fun name => (⟨path, (ServiceNames.ofName name).serviceNameConst,
      "service " ++ Descriptor.qualify f.package name⟩ : Claim)) ?_
    rw [List.map_map]
    exact h.sublist hconstants
  · intro h
    rw [List.nodup_flatMap]
    constructor
    · intro s _
      exact (ServiceNames.nodup_ofName s.name).map fun a b hab => (Claim.mk.inj hab).2.1
    · have hpairwise : f.services.Pairwise fun s t => s.name ≠ t.name := List.pairwise_map.mp h
      refine hpairwise.imp ?_
      intro s t hne c hc hc'
      obtain ⟨ident, -, rfl⟩ := List.mem_map.mp hc
      obtain ⟨other, -, hother⟩ := List.mem_map.mp hc'
      have horigin := (String.append_right_inj "service ").mp (Claim.mk.inj hother).2.2
      exact hne (Descriptor.qualify_injective f.package horigin).symm

end Registry

namespace Environment

variable {env : Environment} {r : Registry} {targets : List String} {p : Publication}

theorem Publication.Written.nodup_methods (h : p.Written env) :
    ∀ s ∈ p.draft.source.services, (s.methods.map (·.name)).Nodup := by
  intro s hs
  refine List.Nodup.of_map Go.camelCase ?_
  rw [List.map_map]
  exact h.methods s hs

/-- The claims of a file, as its source declares services and methods. -/
theorem claims_eq (h : p.Written env) :
    p.draft.claims = p.draft.source.services.flatMap fun s =>
      Registry.ownClaims p.draft.package.importPath p.draft.source s
        ++ (s.operationKeys p.draft.source).map
          (Registry.operationClaim p.draft.package.importPath) := by
  rw [Draft.claims, h.services, List.flatMap_map]
  exact List.flatMap_congr fun s _ => Registry.serviceClaims_namedService env _ _ s

theorem nodup_claims_iff (h : p.Written env) :
    p.draft.claims.Nodup ↔
      (p.draft.source.services.map (·.name)).Nodup ∧ p.draft.source.operationKeys.Nodup := by
  rw [claims_eq h, ← (List.flatMap_append_perm _ _ _).nodup_iff, List.nodup_append,
    Registry.nodup_ownClaims_iff, ← List.map_flatMap,
    List.nodup_map_iff (Registry.operationClaim_injective _)]
  constructor
  · rintro ⟨hservices, hkeys, -⟩
    exact ⟨hservices, hkeys⟩
  · rintro ⟨hservices, hkeys⟩
    refine ⟨hservices, hkeys, ?_⟩
    intro a ha b hb hab
    -- a claim is for a service or for an operation, as its origin says
    obtain ⟨s, -, hs⟩ := List.mem_flatMap.mp ha
    obtain ⟨ident, -, rfl⟩ := List.mem_map.mp hs
    obtain ⟨key, -, rfl⟩ := List.mem_map.mp hb
    exact Registry.service_ne_operation _ _ (Claim.mk.inj hab).2.2

/-- Claims of a published file are for different identifiers exactly if no claim is made twice. -/
theorem nodup_idents_iff (hp : p ∈ env.published r targets) {claims : List Claim}
    (hclaims : claims ⊆ p.draft.claims) : (claims.map (·.ident)).Nodup ↔ claims.Nodup := by
  constructor
  · intro h
    exact List.Nodup.of_map _ h
  · intro h
    exact Registry.nodup_idents_of_holds h (fun c hc => Draft.path_of_mem_claims (hclaims hc))
      fun c hc => holds_registryAfter env r targets p hp c (hclaims hc)

theorem nodup_declared_iff_claims (hp : p ∈ env.published r targets) :
    p.document.declared.Nodup ↔ p.draft.claims.Nodup := by
  have hperm : ([p].flatMap (·.document.declared)).Perm
      (([p].flatMap (·.draft.claims)).map (·.ident)) :=
    declared_perm (List.cons_subset.mpr ⟨hp, List.nil_subset _⟩)
  rw [List.flatMap_singleton, List.flatMap_singleton] at hperm
  rw [hperm.nodup_iff, nodup_idents_iff hp (List.Subset.refl _)]

end Environment

namespace Request

/-- A returned file declares every identifier once exactly if its source declares no service
    twice and no two of its methods have one full name and one constant. A service never has a
    method twice; so where no service has a dot in its name, it is only a service declared twice
    that repeats identifiers. -/
theorem declares_once_iff {request : Request} {response : Response}
    (hresponse : (generate request).outcome = .ok response) :
    (response.files = request.published.map fun p =>
        ⟨some p.draft.name, none, some p.document.render⟩) ∧
      ∀ p ∈ request.published,
        (p.document.declared.Nodup ↔
          (p.draft.source.services.map (·.name)).Nodup ∧ p.draft.source.operationKeys.Nodup) ∧
        (∀ s ∈ p.draft.source.services, (s.methods.map (·.name)).Nodup) ∧
        ((∀ s ∈ p.draft.source.services, '.' ∉ s.name.toList) →
          (p.document.declared.Nodup ↔ (p.draft.source.services.map (·.name)).Nodup)) := by
  refine ⟨files_eq_published hresponse, fun p hp => ?_⟩
  obtain ⟨env, -, -, hpublished, -, hwritten⟩ := written_of_mem_published hp
  have hiff := (Environment.nodup_declared_iff_claims hpublished).trans
    (Environment.nodup_claims_iff hwritten)
  refine ⟨hiff, hwritten.nodup_methods, ?_⟩
  intro hdots
  rw [hiff]
  constructor
  · intro h
    exact h.1
  · intro h
    exact ⟨h, Descriptor.File.nodup_operationKeys h hwritten.nodup_methods hdots⟩

/-- A shop that is declared twice. -/
def twoShops : Request where
  targets := ["shop.proto"]
  parameter := none
  compilerVersion := none
  files := [sampleFile "shop.proto" "shop" "example.com/shop" [] [("Shop", []), ("Shop", [])]]

theorem declares_once_iff_twoShops :
    (∃ response, (generate twoShops).outcome = .ok response) ∧ twoShops.published.length = 1 ∧
      ∀ p ∈ twoShops.published,
        (∀ s ∈ p.draft.source.services, '.' ∉ s.name.toList) ∧
        ¬ (p.draft.source.services.map (·.name)).Nodup ∧ ¬ p.document.declared.Nodup := by
  have houtcome := generate_outcome_of_isOk (by decide +kernel : twoShops.environment?.isOk)
  refine ⟨⟨_, houtcome⟩, by decide +kernel, ?_⟩
  have hsource : ∀ p ∈ twoShops.published,
      (∀ s ∈ p.draft.source.services, '.' ∉ s.name.toList) ∧
        ¬ (p.draft.source.services.map (·.name)).Nodup := by
    decide +kernel
  intro p hp
  obtain ⟨hdots, hnames⟩ := hsource p hp
  obtain ⟨-, -, hiff⟩ := (declares_once_iff houtcome).2 p hp
  exact ⟨hdots, hnames, fun hnodup => hnames ((hiff hdots).mp hnodup)⟩

/-- Both declarations of the shop are generated for, into one file, and without complaint. -/
theorem twoShops_declares_twice :
    ∃ response, (generate twoShops).outcome = .ok response ∧ response.error = none ∧
      ∃ file ∈ response.files, ∃ content, file.content = some content ∧
        declarations content =
          ["ShopServiceName", "ShopNexusClient", "NewShopNexusClient", "ShopNexusServiceHandler",
            "RegisterShopNexusServiceHandler", "ShopServiceName", "ShopNexusClient",
            "NewShopNexusClient", "ShopNexusServiceHandler",
            "RegisterShopNexusServiceHandler"] ∧
        ¬ (declarations content).Nodup := by
  have houtcome := generate_outcome_of_isOk (by decide +kernel : twoShops.environment?.isOk)
  have hdeclared : twoShops.published.map (·.document.declared) =
      [["ShopServiceName", "ShopNexusClient", "NewShopNexusClient", "ShopNexusServiceHandler",
        "RegisterShopNexusServiceHandler", "ShopServiceName", "ShopNexusClient",
        "NewShopNexusClient", "ShopNexusServiceHandler", "RegisterShopNexusServiceHandler"]] := by
    decide +kernel
  have hlegible : ∀ p ∈ twoShops.published,
      (∀ text ∈ p.document.insertions, Text.OneLine text) ∧
        (∀ ident ∈ p.document.declared, IsWord ident) ∧
        ∀ s ∈ p.document.services, s.names = ServiceNames.ofName s.service.name := by
    decide +kernel
  obtain ⟨p, hp, hlist⟩ := List.mem_map.mp (hdeclared ▸ List.mem_singleton_self _)
  obtain ⟨honeLine, hwords, hderived⟩ := hlegible p hp
  have hread := (Document.declarations_render_eq (.of_derived honeLine hwords hderived)).trans hlist
  refine ⟨_, houtcome, by decide +kernel, ⟨some p.draft.name, none, some p.document.render⟩, ?_,
    p.document.render, rfl, hread, ?_⟩
  · rw [files_eq_published houtcome]
    exact List.mem_map_of_mem hp
  · rw [hread]
    decide

/-- Names with dots: two methods with one full name, and with one constant. -/
def dottedShops : Request where
  targets := ["shop.proto"]
  parameter := none
  compilerVersion := none
  files := [sampleFile "shop.proto" "shop" "example.com/shop" ["Cart"]
    [("A", [("b.c", ".shop.Cart")]), ("A.b", [("c", ".shop.Cart")])]]

example : dottedShops.published.map (·.document.declared.count "ABCOperationName") = [2] := by
  decide +kernel

end Request

end GoBindings
