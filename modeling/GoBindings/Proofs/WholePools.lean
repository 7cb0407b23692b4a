/-
  GoBindings/Proofs/WholePools.lean
  =================================
  **Pools that leave out nothing.**

  Where no file is left out, each one entered the pool of the files before it
  (`forall₂_enters`), everything that the files define is defined in the pool and goes
  together, so that no two declarations of a kind have one name (`nodup_pool_names`), and each
  extension is registered under its own number, so that the extension of a type with a number is
  one of the pool that says so (`extensionOf?_eq`).
-/
import GoBindings.Proofs.Pools
import GoBindings.Proofs.UniqueNames

namespace GoBindings

open Descriptor (qualify)

/-- Elements are found again by their positions. -/
theorem filterMap_zipIdx_eq_filter {α : Type} (xs : List α) (p : α → Bool) :
    (xs.zipIdx.filterMap fun r => if p r.1 then xs[r.2]? else none) = xs.filter p := by
  have hfound : (xs.zipIdx.filterMap fun r => if p r.1 then xs[r.2]? else none) =
      xs.zipIdx.filterMap (Option.guard p ∘ Prod.fst) := by
    refine List.filterMap_congr fun r hr => ?_
    rw [List.mem_zipIdx_iff_getElem?.mp hr, Function.comp_apply, Option.guard]
  rw [hfound, ← List.filterMap_map, List.zipIdx_map_fst, List.filterMap_eq_filter]

namespace Pool

variable {p : Pool} {f : Descriptor.File} {l : Linked.File}

theorem registrationsFrom_eq_zipIdx (first : Nat) (extended : List String) :
    registrationsFrom first (extended.map some) = extended.zipIdx first := by
  induction extended generalizing first with
  | nil => rfl
  | cons x rest ih => rw [List.map_cons, registrationsFrom, ih, List.zipIdx_cons]

/-- The extensions of a file that entered the pool are registered as they are resolved. -/
theorem Enters.extendedTypes (h : p.Enters f l) :
    f.extendedTypes (p.surroundingsOf f) = (l.extensions.map (·.extendee)).map some := by
  rw [Descriptor.File.extendedTypes, List.map_map, ← List.forall₂_eq_eq_eq,
    List.forall₂_map_left_iff, List.forall₂_map_right_iff]
  refine h.fileFrom.extensions.imp fun x e hlink => ?_
  obtain ⟨extendee, hextendee, hlink⟩ := Option.bind_eq_some_iff.mp hlink
  obtain ⟨field, -, hlink⟩ := Option.bind_eq_some_iff.mp hlink
  rw [← Option.some.inj hlink]
  exact hextendee

theorem Enters.registering (h : p.Enters f l) :
    p.registering f =
      p.registrations ++ (l.extensions.map (·.extendee)).zipIdx p.extensions.length := by
  rw [Pool.registering, h.extendedTypes, registrationsFrom_eq_zipIdx]

end Pool

namespace CustomOptions

variable {files before : List Descriptor.File} {f : Descriptor.File} {l : Linked.File}

/-! ### One file after the other -/

theorem enters_last (hnames : ((before ++ [f]).map (·.name)).Nodup)
    (h : (build (before ++ [f])).skipped = []) :
    (build before).skipped = [] ∧ ∃ l, (build before).pool.Enters f l ∧
      (build (before ++ [f])).pool = (build before).pool.opened f l := by
  rw [build_concat, skipped_add, List.append_eq_nil_iff] at h
  refine ⟨h.1, ?_⟩
  rcases enters_or_skipped hnames with ⟨l, hl, -⟩ | ⟨r, hr⟩
  · exact ⟨l, hl, by rw [build_concat, pool_add, hl.add]⟩
  · rw [skipped?_eq hnames] at hr
    rw [hr] at h
    exact nomatch h.2

/-- What holds of no files and is kept by each file that enters holds of all files, if none of
    them is left out. -/
theorem whole_induction {motive : List Descriptor.File → Prop} (nil : motive [])
    (concat : ∀ before f l, motive before → (build before).pool.Enters f l →
      (build (before ++ [f])).pool = (build before).pool.opened f l → motive (before ++ [f]))
    (hnames : (files.map (·.name)).Nodup) (h : (build files).skipped = []) : motive files := by
  induction files using List.reverseRecOn with
  | nil => exact nil
  | append_singleton before f ih =>
    obtain ⟨hbefore, l, hl, hpool⟩ := enters_last hnames h
    rw [List.map_append] at hnames
    exact concat before f l (ih hnames.of_append_left hbefore) hl hpool

section Whole

variable (hnames : (files.map (·.name)).Nodup) (hwhole : (build files).skipped = [])
include hnames hwhole

/-- The files of the pool are the source files, each as it entered the pool before it. -/
theorem forall₂_enters :
    List.Forall₂ (fun f l => (poolBefore files f).Enters f l) files (build files).pool.files := by
  -- what a file finds is told from all files, so those behind the ones added so far are kept
  have hprefix : ∀ after, ((files ++ after).map (·.name)).Nodup →
      List.Forall₂ (fun f l => (poolBefore (files ++ after) f).Enters f l) files
        (build files).pool.files := by
    refine whole_induction (motive := fun files => ∀ after,
      ((files ++ after).map (·.name)).Nodup →
        List.Forall₂ (fun f l => (poolBefore (files ++ after) f).Enters f l) files
          (build files).pool.files) (fun _ _ => .nil) ?_ hnames hwhole
    intro before f l ih hl hpool after hall
    rw [List.append_assoc, List.singleton_append] at hall ⊢
    rw [hpool]
    refine List.rel_append (ih _ hall) (.cons ?_ .nil)
    rwa [poolBefore_eq hall]
  simpa using hprefix [] (by rwa [List.append_nil])

/-- Each extension is registered under its number. -/
theorem registrations_eq : (build files).pool.registrations =
    ((build files).pool.extensions.map (·.extendee)).zipIdx := by
  refine whole_induction (motive := fun files => (build files).pool.registrations =
    ((build files).pool.extensions.map (·.extendee)).zipIdx) rfl ?_ hnames hwhole
  intro before f l ih hl hpool
  have hextensions : (build (before ++ [f])).pool.extensions =
      (build before).pool.extensions ++ l.extensions := by
    rw [Pool.extensions, hpool, Pool.opened, List.flatMap_append, List.flatMap_singleton]
    rfl
  rw [hextensions, hpool, Pool.opened, hl.registering, ih, List.map_append, List.zipIdx_append,
    List.length_map, Nat.zero_add]

/-- The extension of a type with a number is the first one of the pool that says so. -/
theorem extensionOf?_eq (type : String) (number : Nat) :
    (build files).pool.extensionOf? type number = (build files).pool.extensions.find? fun x =>
      x.extendee == type && x.field.number == (number : Int) := by
  have hregistered : ((build files).pool.registrations.filterMap fun r =>
      if r.1 == type then (build files).pool.extensions[r.2]? else .none) =
        (build files).pool.extensions.filter (·.extendee == type) := by
    rw [registrations_eq hnames hwhole, List.zipIdx_map, List.filterMap_map]
    exact filterMap_zipIdx_eq_filter _ fun x : Linked.Extension => x.extendee == type
  rw [Pool.extensionOf?, hregistered, List.find?_filter]
  simp only [Bool.decide_and, Bool.decide_eq_true]

/-- What is defined in the pool is what the files define, and goes together. -/
theorem definitions_eq_and_agree :
    (build files).pool.leftovers = [] ∧
      (build files).pool.definitions = files.flatMap (·.definitions) ∧ DefinitionsAgree files := by
  refine whole_induction (motive := fun files => (build files).pool.leftovers = [] ∧
    (build files).pool.definitions = files.flatMap (·.definitions) ∧ DefinitionsAgree files)
    ⟨rfl, rfl, .nil⟩ ?_ hnames hwhole
  rintro before f l ⟨hleftovers, hdefinitions, hagree⟩ hl hpool
  have hcompatible : compatible (build before).pool.definitions f.definitions = true := by
    have hfit := hl.namesFit
    simp only [Pool.namesFit, Bool.and_eq_true] at hfit
    exact hfit.1.1.2
  rw [hpool]
  refine ⟨hleftovers, ?_, ?_⟩
  · rw [Pool.definitions, hleftovers, List.append_nil] at hdefinitions
    rw [Pool.definitions, Pool.opened, hleftovers, List.append_nil, List.flatMap_append,
      hdefinitions, List.flatMap_append, List.flatMap_singleton, List.flatMap_singleton,
      hl.fileFrom.definitions]
  · rw [DefinitionsAgree, List.flatMap_append, List.flatMap_singleton, ← hdefinitions]
    exact pairwise_of_compatible (hdefinitions ▸ hagree) hcompatible

/-! ### Names in a pool -/

/-- Declarations of one kind, which the pool has as the files name them, have different names. -/
theorem nodup_pool_names (kind : Entity) (hkind : kind ≠ .package)
    {names : Descriptor.File → List String} {found : Linked.File → List String}
    (hdefined : ∀ f : Descriptor.File, (f.defining kind (names f)).Sublist f.definitions)
    (hfound : ∀ f l s kept, Pool.FileFrom s kept f l → names f = found l) :
    ((build files).pool.files.flatMap found).Nodup := by
  have hflat := flatMap_eq_of_forall₂ (forall₂_enters hnames hwhole)
    fun f l hl => hfound f l _ _ hl.fileFrom
  rw [← hflat]
  exact (definitions_eq_and_agree hnames hwhole).2.2.nodup_names kind hkind
    fun f _ => hdefined f

theorem nodup_messages : ((build files).pool.messages.map (·.fullName)).Nodup := by
  rw [Pool.messages, List.map_flatMap]
  refine nodup_pool_names hnames hwhole .message (by decide)
    Descriptor.File.messageTypes_sublist fun f l s kept h => ?_
  rw [← List.forall₂_eq_eq_eq, List.forall₂_map_left_iff, List.forall₂_map_right_iff]
  exact h.messages.imp fun _ _ hm => hm.fullName.symm

theorem nodup_extensions : ((build files).pool.extensions.map (·.fullName)).Nodup := by
  rw [Pool.extensions, List.map_flatMap]
  refine nodup_pool_names hnames hwhole .extensionField (by decide)
    Descriptor.File.extensionNames_sublist fun f l s kept h => ?_
  rw [Descriptor.File.extensionNames, ← List.forall₂_eq_eq_eq, List.forall₂_map_left_iff,
    List.forall₂_map_right_iff]
  refine h.extensions.imp fun x e hlink => ?_
  obtain ⟨extendee, -, hlink⟩ := Option.bind_eq_some_iff.mp hlink
  obtain ⟨field, -, hlink⟩ := Option.bind_eq_some_iff.mp hlink
  rw [← Option.some.inj hlink]

theorem nodup_services :
    (((build files).pool.files.flatMap (·.services)).map (·.fullName)).Nodup := by
  rw [List.map_flatMap]
  exact nodup_pool_names hnames hwhole .service (by decide)
    Descriptor.File.serviceNames_sublist fun f l s kept h => h.serviceNames.symm

end Whole

end CustomOptions

end GoBindings
