/-
  GoBindings/Proofs/UniqueNames.lean
  ==================================
  **What is not a package has a name of its own.**

  Definitions go together if any two of them agree (`pairwise_of_compatible`), and then a name
  that is not that of a package belongs to one of them (`Definition.eq_of_agree`). Messages,
  extensions and services all occur among the definitions of their file, so within definitions
  that go together no two of a kind have one name.
-/
import GoBindings.Proofs.Drafts
import Mathlib.Data.List.Flatten
import Mathlib.Data.List.Pairwise
import Mathlib.Data.List.Perm.Basic

namespace GoBindings

open Descriptor (qualify)

namespace Definition

variable {a b : Definition} {ds all : List Definition}

/-- The two definitions can both be made. -/
def Agree (a b : Definition) : Prop := a.agrees b = true

theorem Agree.symm (h : Agree a b) : Agree b a := by
  unfold Agree agrees at *
  rw [Bool.or_eq_true, bne_iff_ne, Bool.and_eq_true] at *
  exact h.imp Ne.symm And.symm

instance : Std.Symm Agree := ⟨fun _ _ => Agree.symm⟩

theorem Agree.package_of_name_eq (h : Agree a b) (hname : a.name = b.name) :
    a.entity = .package := by
  unfold Agree agrees at h
  rw [Bool.or_eq_true, bne_iff_ne, Bool.and_eq_true] at h
  rcases h with hne | hpackage
  · exact absurd hname hne
  · exact beq_iff_eq.mp hpackage.1

/-- A name that is not that of a package is defined once. -/
theorem eq_of_agree (hall : all.Pairwise Agree) (ha : a ∈ all) (hb : b ∈ all)
    (hname : a.name = b.name) (hentity : a.entity ≠ .package) : a = b := by
  by_contra hne
  exact hentity ((hall.forall ha hb hne).package_of_name_eq hname)

theorem nodup_names_of_sublist (hall : all.Pairwise Agree) (hds : ds.Sublist all)
    (hentity : ∀ d ∈ ds, d.entity ≠ .package) : (ds.map (·.name)).Nodup := by
  refine List.pairwise_map.mpr ((hall.sublist hds).imp_of_mem fun {a b} ha _ hagree hname => ?_)
  exact hentity a ha (hagree.package_of_name_eq hname)

end Definition

theorem pairwise_of_compatible {old new : List Definition} (hold : old.Pairwise Definition.Agree)
    (h : compatible old new = true) : (old ++ new).Pairwise Definition.Agree := by
  induction new generalizing old with
  | nil => rwa [List.append_nil]
  | cons d rest ih =>
    rw [compatible, Bool.and_eq_true, List.all_eq_true] at h
    have hgrown : (d :: old ++ rest).Pairwise Definition.Agree :=
      ih (List.pairwise_cons.mpr ⟨h.1, hold⟩) h.2
    exact (List.perm_middle.pairwise_iff Definition.Agree.symm).mpr hgrown

/-! ### Definitions of one file -/

theorem filterMap_sublist_flatMap {α β : Type} {g : α → Option β} {h : α → List β}
    (xs : List α) (hgh : ∀ x, (g x).toList.Sublist (h x)) :
    (xs.filterMap g).Sublist (xs.flatMap h) := by
  induction xs with
  | nil => exact List.Sublist.slnil
  | cons x rest ih =>
    have hfirst := hgh x
    rw [List.filterMap_cons, List.flatMap_cons]
    cases hx : g x with
    | none => exact ih.trans (List.sublist_append_right _ _)
    | some y => exact List.Sublist.append (hx ▸ hfirst) ih

namespace Descriptor.File

variable (f : File)

theorem filterMap_members_sublist {g : Member → Option Definition}
    (h : ∀ m, (g m).toList.Sublist (m.definitions f.name)) :
    (f.members.filterMap g).Sublist f.definitions :=
  (filterMap_sublist_flatMap f.members h).trans
    ((List.sublist_append_right _ _).trans (List.sublist_append_left _ _))

/-- Definitions of one kind, by their names. -/
def defining (kind : Entity) (names : List String) : List Definition :=
  names.map fun name => ⟨name, kind, f.name⟩

def extensionNames : List String := f.allExtensions.map fun x => qualify x.1 x.2.name

theorem messageTypes_sublist :
    (f.defining .message (f.messageTypes.map (·.1))).Sublist f.definitions := by
  rw [defining, List.map_map, messageTypes, List.map_filterMap]
  refine f.filterMap_members_sublist fun m => ?_
  cases m with
  | message scope m => exact List.singleton_sublist.mpr List.mem_cons_self
  | enumeration scope e => exact List.nil_sublist _
  | extensionField scope x => exact List.nil_sublist _

theorem extensionNames_sublist :
    (f.defining .extensionField f.extensionNames).Sublist f.definitions := by
  rw [defining, extensionNames, List.map_map, allExtensions, List.map_filterMap]
  refine f.filterMap_members_sublist fun m => ?_
  cases m with
  | message scope m => exact List.nil_sublist _
  | enumeration scope e => exact List.nil_sublist _
  | extensionField scope x => exact List.singleton_sublist.mpr List.mem_cons_self

theorem serviceNames_sublist : (f.defining .service f.serviceNames).Sublist f.definitions := by
  have hservices : (f.defining .service f.serviceNames).Sublist
      (f.services.flatMap fun d => d.definitions f.name (qualify f.package d.name)) := by
    rw [defining, serviceNames, List.map_map, ← List.filterMap_eq_map]
    exact filterMap_sublist_flatMap f.services fun d =>
      List.singleton_sublist.mpr List.mem_cons_self
  exact hservices.trans (List.sublist_append_right _ _)

end Descriptor.File

/-! ### Definitions of several files -/

/-- What all files define goes together. -/
def DefinitionsAgree (files : List Descriptor.File) : Prop :=
  (files.flatMap (·.definitions)).Pairwise Definition.Agree

theorem DefinitionsAgree.perm {files order : List Descriptor.File} (h : DefinitionsAgree files)
    (hperm : files.Perm order) : DefinitionsAgree order :=
  List.Pairwise.perm h (hperm.flatMap_right _) Definition.Agree.symm

/-- Names of one kind, which is not that of packages, are not repeated. -/
theorem DefinitionsAgree.nodup_names {files : List Descriptor.File} (h : DefinitionsAgree files)
    (kind : Entity) (hkind : kind ≠ .package) {names : Descriptor.File → List String}
    (hnames : ∀ f ∈ files, (f.defining kind (names f)).Sublist f.definitions) :
    (files.flatMap names).Nodup := by
  have hflat : (files.flatMap fun f => f.defining kind (names f)).map (·.name) =
      files.flatMap names := by
    simp [List.map_flatMap, Descriptor.File.defining, Function.comp_def]
  rw [← hflat]
  refine Definition.nodup_names_of_sublist h (List.Sublist.flatMap_right files hnames) ?_
  intro d hd
  obtain ⟨f, -, hdf⟩ := List.mem_flatMap.mp hd
  obtain ⟨name, -, rfl⟩ := List.mem_map.mp hdf
  exact hkind

end GoBindings
