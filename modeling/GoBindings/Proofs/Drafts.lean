/-
  GoBindings/Proofs/Drafts.lean
  =============================
  **What drafts are made of.**

  When the services of a file can be collected, they are the declared ones, one for one,
  with the names chosen for them in the pool (`Service.collect_eq`). When they can be named,
  each method has the identifiers and the runtime name that belong to it, and no two methods
  of a service share an identifier (`nameServices_eq`). So the draft for a file is a function
  of its declarations alone (`draft_services`).
-/
import GoBindings.Proofs.Collecting
import GoBindings.Proofs.Declarations
import GoBindings.Proofs.OperationNames

namespace GoBindings

open Descriptor (qualify)

/-! ### Full names that a file declares -/

namespace Descriptor

def Service.methodNames (f : File) (s : Service) : List String :=
  s.methods.map fun m => s.fullName f ++ "." ++ m.name

/-- The full names of the services of a file. -/
def File.serviceNames (f : File) : List String := f.services.map (·.fullName f)

/-- The full names of the methods of a file. -/
def File.methodNames (f : File) : List String := f.services.flatMap (·.methodNames f)

end Descriptor

/-- The full names of the operations of a service. -/
def NamedService.methodNames (n : NamedService) : List String :=
  n.operations.map fun op => n.service.fullName ++ "." ++ op.operation.methodName

/-- The named service comes from a declaration in a file. -/
structure Resolves (f : Descriptor.File) (d : Descriptor.Service) (n : NamedService) : Prop where
  fullName : n.service.fullName = d.fullName f
  methodNames : n.methodNames = d.methodNames f
  names : n.names = ServiceNames.ofName n.service.name

/-! ### Named services -/

namespace Environment

theorem nameServices_eq {settings : Settings} {services : List Service}
    {named : List NamedService}
    (h : (nameServices settings services).outcome = .ok named) :
    named = services.map (·.named settings) ∧
      ∀ s ∈ services, (s.operations.map fun op => Go.camelCase op.methodName).Nodup := by
  obtain ⟨hnameable, rfl⟩ := nameServices_eq_ok_iff.mp h
  exact ⟨rfl, fun s hs => (hnameable s hs).goNames⟩

/-- The service for a declaration in a file, with its names. -/
def namedService (env : Environment) (f : Descriptor.File) (d : Descriptor.Service) :
    NamedService :=
  (d.toService env.custom f).named env.settings

/-- The services of a draft are the declared ones with their names, and there are some. -/
theorem draft_services {env : Environment} {f : Descriptor.File} {d : Draft}
    (h : (env.draft f).outcome = .ok (some d)) :
    d.services = f.services.map (env.namedService f) ∧ f.services ≠ [] ∧
      ∀ s ∈ f.services, (s.methods.map fun m => Go.camelCase m.name).Nodup := by
  obtain ⟨services, hservices, h⟩ := Traced.outcome_bind_eq_ok.mp h
  split at h
  case isTrue => exact nomatch h
  case isFalse hsome =>
    obtain ⟨name, -, h⟩ := Traced.outcome_bind_eq_ok.mp h
    obtain ⟨named, hnamed, h⟩ := Traced.outcome_bind_eq_ok.mp h
    obtain rfl := Service.collect_eq hservices
    obtain ⟨rfl, hnodup⟩ := nameServices_eq hnamed
    rw [← Option.some.inj (Except.ok.inj h)]
    refine ⟨List.map_map, ?_, ?_⟩
    · rwa [List.isEmpty_map, List.isEmpty_iff] at hsome
    · intro s hs
      have hmethods := hnodup _ (List.mem_map_of_mem hs)
      rwa [Descriptor.Service.toService, List.map_map] at hmethods

theorem resolves_namedService (env : Environment) (f : Descriptor.File) (d : Descriptor.Service) :
    Resolves f d (env.namedService f d) where
  fullName := rfl
  methodNames := by
    rw [NamedService.methodNames, namedService, Service.named, Descriptor.Service.toService,
      List.map_map, List.map_map]
    rfl
  names := rfl

theorem draft_ok {env : Environment} {f : Descriptor.File} {d : Draft}
    (h : (env.draft f).outcome = .ok (some d)) :
    d.source = f ∧ d.package = env.outputPackage f ∧
      Placement.outputName f.name (env.sourcePackage f) d.package env.settings = .ok d.name ∧
      List.Forall₂ (Resolves f) f.services d.services := by
  have hresolves : List.Forall₂ (Resolves f) f.services (f.services.map (env.namedService f)) :=
    List.forall₂_map_right_iff.mpr
      (List.forall₂_same.mpr fun s _ => resolves_namedService env f s)
  rw [← (draft_services h).1] at hresolves
  obtain ⟨services, hservices, h⟩ := Traced.outcome_bind_eq_ok.mp h
  split at h
  case isTrue => exact nomatch h
  case isFalse =>
    obtain ⟨name, hname, h⟩ := Traced.outcome_bind_eq_ok.mp h
    obtain ⟨named, -, h⟩ := Traced.outcome_bind_eq_ok.mp h
    obtain rfl := Option.some.inj (Except.ok.inj h)
    exact ⟨rfl, rfl, hname, hresolves⟩

/-! ### What is published -/

/-- What a target can publish is made from the first file with its name. -/
theorem publication?_ok {env : Environment} {target : String} {p : Publication}
    (h : env.publication? target = some p) :
    env.files.find? (·.name == target) = some p.draft.source ∧
      (env.draft p.draft.source).outcome = .ok (some p.draft) ∧
      (p.draft.document env).outcome = .ok p.document := by
  unfold publication? at h
  obtain ⟨d, hd, h⟩ := Option.bind_eq_some_iff.mp h
  obtain ⟨document, hdocument, h⟩ := Option.bind_eq_some_iff.mp h
  obtain rfl : (⟨d, document⟩ : Publication) = p := Option.some.inj h
  unfold draftFor at hd
  split at hd
  case h_1 f hfind =>
    cases hdraft : (env.draft f).outcome with
    | error fault => rw [hdraft] at hd; exact nomatch hd
    | ok drafted =>
      rw [hdraft] at hd
      obtain rfl : drafted = some d := hd
      obtain ⟨hsource, -⟩ := draft_ok hdraft
      cases houtcome : (d.document env).outcome with
      | error fault => rw [houtcome] at hdocument; exact nomatch hdocument
      | ok written =>
        rw [houtcome] at hdocument
        obtain rfl : written = document := Option.some.inj hdocument
        exact ⟨hsource ▸ hfind, hsource ▸ hdraft, rfl⟩
  case h_2 => exact nomatch hd

theorem names_published_sublist (env : Environment) (r : Registry) (targets : List String) :
    ((env.published r targets).map (·.draft.source.name)).Sublist targets := by
  induction targets generalizing r with
  | nil => exact List.Sublist.slnil
  | cons target rest ih =>
    rw [published_cons, List.map_append]
    obtain ⟨p, hp, hpublication, -⟩ | ⟨hnone, -⟩ := publicationOf?_settle env r target
    · have hname : p.draft.source.name = target := by
        simpa using List.find?_some (publication?_ok hpublication).1
      rw [hp, ← hname]
      exact List.Sublist.cons_cons _ (ih _)
    · rw [hnone]
      exact List.Sublist.cons _ (ih _)

theorem exists_of_mem_published {env : Environment} {r : Registry} {targets : List String}
    {p : Publication} (hp : p ∈ env.published r targets) :
    ∃ target ∈ targets, env.publication? target = some p := by
  induction targets generalizing r with
  | nil => exact absurd hp List.not_mem_nil
  | cons target rest ih =>
    rcases mem_published_cons.mp hp with hfirst | hrest
    · exact ⟨target, List.mem_cons_self, (publication?_of_settle hfirst).1⟩
    · obtain ⟨found, hfound, hpublication⟩ := ih hrest
      exact ⟨found, List.mem_cons_of_mem target hfound, hpublication⟩

end Environment

/-! ### Sample files -/

/-- The bytes of a file with messages, and with services whose methods take and give one
    type. -/
def sampleFile (name package goPackage : String) (messages : List String)
    (services : List (String × List (String × String))) : List UInt8 :=
  Wire.writeText 1 name ++ Wire.writeText 2 package
    ++ messages.flatMap (fun m => Wire.writeBytes 4 (Wire.writeText 1 m))
    ++ services.flatMap (fun s => Wire.writeBytes 6 (Wire.writeText 1 s.1
      ++ s.2.flatMap fun m => Wire.writeBytes 2 (Wire.writeText 1 m.1
        ++ Wire.writeText 2 m.2 ++ Wire.writeText 3 m.2)))
    ++ Wire.writeBytes 8 (Wire.writeText 11 goPackage)

end GoBindings
