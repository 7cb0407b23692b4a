/-
  GoBindings/Proofs/OutputNames.lean
  ==================================
  **When two files get one name.**

  The name of an output file is a directory, the base name of the source file and the
  suffix (`fullName_eq`). The directory is that of the output package, or that of the
  source file, with a directory for the other package if there is one (`place`). A
  base name has no slash, so directory and base name can be told from the name, and
  leaving out a module directory changes nothing about that.

  So names differ exactly if places differ. Source files of one base name that share
  an output package share a name when names follow import paths; beside their sources,
  files without another package never do.
-/
import GoBindings.Proofs.Drafts

namespace GoBindings

/-- What is left out of every output name: the module directory with its slash. -/
def Settings.modulePrefix (s : Settings) : String := (s.module.map (· ++ "/")).getD ""

namespace Placement

/-- The name of a source file without its directory and its ending. -/
def baseName (sourceName : String) : String := (directoryAndBase (stem sourceName)).2

/-- The directory that an output file is put into, with its slash, before a module directory is
    left out. -/
def directory (sourceName : String) (source output : Go.Package) (settings : Settings) :
    String :=
  match settings.paths with
  | .importPath => output.importPath ++ "/"
  | .sourceRelative =>
    if source.importPath = output.importPath then (directoryAndBase (stem sourceName)).1
    else (directoryAndBase (stem sourceName)).1 ++ output.name ++ "/"

/-! ### Names taken apart -/

theorem directoryAndBase_append (name : String) :
    (directoryAndBase name).1 ++ (directoryAndBase name).2 = name := by
  unfold directoryAndBase
  split
  case h_1 front base hcut => exact (Text.cutLast?_eq_some hcut).1.symm
  case h_2 => exact String.empty_append

theorem slash_not_mem_base (name : String) : '/' ∉ (directoryAndBase name).2.toList := by
  unfold directoryAndBase
  split
  case h_1 front base hcut => exact (Text.cutLast?_eq_some hcut).2
  case h_2 hcut => exact Text.cutLast?_eq_none hcut

theorem closedBy_slash (name : String) : Text.ClosedBy '/' (directoryAndBase name).1 := by
  unfold directoryAndBase
  split
  case h_1 front base hcut => exact .inr ⟨front, rfl⟩
  case h_2 => exact .inl rfl

theorem closedBy_directory (sourceName : String) (source output : Go.Package)
    (settings : Settings) :
    Text.ClosedBy '/' (directory sourceName source output settings) := by
  unfold directory
  split
  case h_1 => exact .inr ⟨output.importPath, rfl⟩
  case h_2 =>
    split
    case isTrue => exact closedBy_slash (stem sourceName)
    case isFalse => exact .inr ⟨_, rfl⟩

theorem fullName_eq (sourceName : String) (source output : Go.Package) (settings : Settings) :
    fullName sourceName source output settings =
      directory sourceName source output settings ++ baseName sourceName
        ++ settings.fileSuffix := by
  unfold fullName directory baseName
  cases settings.paths with
  | importPath => rfl
  | sourceRelative =>
    by_cases hmoved : source.importPath = output.importPath
    · simp only [if_pos hmoved, directoryAndBase_append]
    · simp only [if_neg hmoved]

theorem below?_eq_some_iff {dir name rest : String} :
    below? dir name = some rest ↔ name = dir ++ ("/" ++ rest) := by
  unfold below?
  simp only [Option.bind_eq_some_iff, Text.dropStart?_eq_some_iff]
  constructor
  · rintro ⟨_, rfl, rfl⟩
    rfl
  · intro h
    exact ⟨_, h, rfl⟩

theorem outputName_eq_ok_iff {settings : Settings} {f name : String} {source output : Go.Package} :
    outputName f source output settings = .ok name ↔
      fullName f source output settings = settings.modulePrefix ++ name := by
  unfold outputName Settings.modulePrefix
  cases settings.module with
  | none => simp
  | some m =>
    simp only [Option.map_some, Option.getD_some, String.append_assoc, ← below?_eq_some_iff]
    cases below? m (fullName f source output settings) with
    | none => simp
    | some rest => simp

theorem outputName_eq_iff {settings : Settings} {f g : String} {a b c d : Go.Package}
    {name other : String} (h : outputName f a b settings = .ok name)
    (h' : outputName g c d settings = .ok other) :
    name = other ↔ fullName f a b settings = fullName g c d settings := by
  rw [outputName_eq_ok_iff.mp h, outputName_eq_ok_iff.mp h', String.append_right_inj]

/-- Whole names are equal exactly if their directories and base names are. -/
theorem fullName_eq_iff {settings : Settings} {f g : String} {a b c d : Go.Package} :
    fullName f a b settings = fullName g c d settings ↔
      directory f a b settings = directory g c d settings ∧ baseName f = baseName g := by
  -- the suffix is the same for all, and the last slash is found in what stands before it
  rw [fullName_eq, fullName_eq, String.append_left_inj]
  constructor
  · intro h
    exact Text.append_inj_of_closedBy (slash_not_mem_base _) (slash_not_mem_base _)
      (closedBy_directory f a b settings) (closedBy_directory g c d settings) h
  · rintro ⟨hdirectory, hbase⟩
    rw [hdirectory, hbase]

theorem eq_of_stem_eq {f g : String} (hf : ∃ front, f = front ++ ".proto")
    (hg : ∃ front, g = front ++ ".proto") (h : stem f = stem g) : f = g := by
  obtain ⟨front, rfl⟩ := hf
  obtain ⟨front', rfl⟩ := hg
  have hstem : ∀ s, stem (s ++ ".proto") = s := by
    intro s
    rw [stem, Text.dropEnd?_eq_some_iff.mpr rfl, Option.getD_some]
  rw [hstem, hstem] at h
  rw [h]

end Placement

/-- One map repeats itself on a list where the other one does, if they identify the same
    elements of it. -/
theorem nodup_map_congr {α β γ : Type} {f : α → β} {g : α → γ} {l : List α}
    (h : ∀ a ∈ l, ∀ b ∈ l, f a = f b ↔ g a = g b) : (l.map f).Nodup ↔ (l.map g).Nodup := by
  unfold List.Nodup
  rw [List.pairwise_map, List.pairwise_map]
  exact List.Pairwise.iff_of_mem fun ha hb => not_congr (h _ ha _ hb)

namespace Environment

variable {env : Environment} {r : Registry} {targets : List String}

/-- The directory and the base name of the output for a source file. -/
def place (env : Environment) (f : Descriptor.File) : String × String :=
  (Placement.directory f.name (env.sourcePackage f) (env.outputPackage f) env.settings,
    Placement.baseName f.name)

theorem outputName_of_mem_published {p : Publication} (hp : p ∈ env.published r targets) :
    Placement.outputName p.draft.source.name (env.sourcePackage p.draft.source)
      (env.outputPackage p.draft.source) env.settings = .ok p.draft.name := by
  obtain ⟨target, -, hpublication⟩ := exists_of_mem_published hp
  obtain ⟨-, hpackage, hname, -⟩ := draft_ok (publication?_ok hpublication).2.1
  rwa [hpackage] at hname

theorem name_eq_iff {p q : Publication} (hp : p ∈ env.published r targets)
    (hq : q ∈ env.published r targets) :
    p.draft.name = q.draft.name ↔ env.place p.draft.source = env.place q.draft.source := by
  rw [Placement.outputName_eq_iff (outputName_of_mem_published hp)
    (outputName_of_mem_published hq), Placement.fullName_eq_iff, place, place, Prod.mk.injEq]

theorem stem_eq_of_place_eq {f g : Descriptor.File} (hpaths : env.settings.paths = .sourceRelative)
    (hpackage : env.settings.package = none) (h : env.place f = env.place g) :
    Placement.stem f.name = Placement.stem g.name := by
  have hplace : ∀ f, env.place f = Placement.directoryAndBase (Placement.stem f.name) := by
    intro f
    simp only [place, Placement.directory, Placement.baseName, hpaths, outputPackage, hpackage,
      Go.Package.renamed, if_true]
  rw [hplace, hplace] at h
  rw [← Placement.directoryAndBase_append (Placement.stem f.name), h,
    Placement.directoryAndBase_append]

theorem nodup_names_of_sourceRelative (hpaths : env.settings.paths = .sourceRelative)
    (hpackage : env.settings.package = none) (htargets : targets.Nodup)
    (hending : ∀ t ∈ targets, ∃ front, t = front ++ ".proto") :
    ((env.published r targets).map (·.draft.name)).Nodup := by
  have hsublist := names_published_sublist env r targets
  have hsource : ∀ p ∈ env.published r targets, ∃ front, p.draft.source.name = front ++ ".proto" :=
    fun p hp => hending _ (hsublist.subset (List.mem_map_of_mem hp))
  have hnames := htargets.sublist hsublist
  unfold List.Nodup at hnames ⊢
  rw [List.pairwise_map] at hnames ⊢
  -- one name would mean one place, and so one source
  refine hnames.imp_of_mem fun hp hq hne heq => hne ?_
  exact Placement.eq_of_stem_eq (hsource _ hp) (hsource _ hq)
    (stem_eq_of_place_eq hpaths hpackage ((name_eq_iff hp hq).mp heq))

end Environment

/-! ### Requests -/

namespace Request

theorem names_eq_published {request : Request} {response : Response}
    (hresponse : (generate request).outcome = .ok response) :
    response.files.map (·.name) = request.published.map fun p => some p.draft.name := by
  rw [files_eq_published hresponse, List.map_map]
  rfl

/-- Two returned files have one name exactly if they have one base name and go into one
    directory. Beside their sources, without another package, files of different sources
    have different names. -/
theorem nodup_names_iff {request : Request} {response : Response} {env : Environment}
    (henv : request.environment? = .ok env)
    (hresponse : (generate request).outcome = .ok response) :
    response.files.map (·.name) = request.published.map (fun p => some p.draft.name) ∧
      (∀ p ∈ request.published, ∀ q ∈ request.published,
        p.draft.name = q.draft.name ↔ env.place p.draft.source = env.place q.draft.source) ∧
      ((response.files.map (·.name)).Nodup ↔
        (request.published.map fun p => env.place p.draft.source).Nodup) ∧
      (env.settings.paths = .sourceRelative → env.settings.package = none →
        request.targets.Nodup → (∀ t ∈ request.targets, ∃ front, t = front ++ ".proto") →
        (response.files.map (·.name)).Nodup) := by
  have hpublished : request.published = env.published Registry.empty request.targets := by
    rw [published, henv]
  have hnames := names_eq_published hresponse
  have heq : ∀ p ∈ request.published, ∀ q ∈ request.published,
      p.draft.name = q.draft.name ↔ env.place p.draft.source = env.place q.draft.source := by
    intro p hp q hq
    exact Environment.name_eq_iff (hpublished ▸ hp) (hpublished ▸ hq)
  refine ⟨hnames, heq, ?_, fun hpaths hpackage htargets hending => ?_⟩
  · rw [hnames]
    exact nodup_map_congr fun p hp q hq => Option.some_inj.trans (heq p hp q hq)
  · have hdistinct := Environment.nodup_names_of_sourceRelative (r := Registry.empty) hpaths
      hpackage htargets hending
    rw [hnames, hpublished]
    have hsome := hdistinct.map fun a b => (Option.some.inj : some a = some b → a = b)
    rwa [List.map_map] at hsome

/-- Two files of one base name for one Go package. -/
def twins (parameter : Option String) : Request where
  targets := ["a/orders.proto", "b/orders.proto"]
  parameter
  compilerVersion := none
  files :=
    [sampleFile "a/orders.proto" "a" "example.com/gen/shared" ["Order"]
        [("Orders", [("Place", ".a.Order")])],
      sampleFile "b/orders.proto" "b" "example.com/gen/shared" []
        [("Returns", [("Accept", ".a.Order")])]]

theorem twins_targets (parameter : Option String) :
    ∀ t ∈ (twins parameter).targets, ∃ front, t = front ++ ".proto" := by
  intro t ht
  rcases List.mem_cons.mp ht with rfl | ht
  · exact ⟨"a/orders", rfl⟩
  · obtain rfl := List.mem_singleton.mp ht
    exact ⟨"b/orders", rfl⟩

/-- Under import paths the directories of the sources do not matter. -/
theorem twins_share_name :
    (twins none).targets.Nodup ∧ (∀ t ∈ (twins none).targets, ∃ front, t = front ++ ".proto") ∧
      (Settings.parse (twins none).parameter).isOk ∧
      ∃ response, (generate (twins none)).outcome = .ok response ∧
        response.files.map (·.name) =
          [some "example.com/gen/shared/orders_nexus.pb.go",
            some "example.com/gen/shared/orders_nexus.pb.go"] ∧
        ¬ (response.files.map (·.name)).Nodup := by
  have hreadable : (twins none).environment?.isOk := by decide +kernel
  have hpublished : (twins none).published.map (fun p => some p.draft.name) =
      [some "example.com/gen/shared/orders_nexus.pb.go",
        some "example.com/gen/shared/orders_nexus.pb.go"] := by
    decide +kernel
  cases henv : (twins none).environment? with
  | error fault => rw [henv] at hreadable; exact nomatch hreadable
  | ok env =>
    have hresponse := generate_outcome henv
    have hnames := (names_eq_published hresponse).trans hpublished
    exact ⟨by decide, twins_targets none, rfl, _, hresponse, hnames, by rw [hnames]; decide⟩

/-- Beside their sources the same files have different names. -/
theorem nodup_names_iff_twins :
    ∃ response, (generate (twins (some "paths=source_relative"))).outcome = .ok response ∧
      response.files.map (·.name) =
        [some "a/orders_nexus.pb.go", some "b/orders_nexus.pb.go"] ∧
      (response.files.map (·.name)).Nodup := by
  have hchosen : (twins (some "paths=source_relative")).environment?.toOption.map
      (fun env => (env.settings.paths, env.settings.package)) =
        some (.sourceRelative, none) := by
    decide +kernel
  cases henv : (twins (some "paths=source_relative")).environment? with
  | error fault => rw [henv] at hchosen; exact nomatch hchosen
  | ok env =>
    rw [henv] at hchosen
    obtain ⟨hpaths, hpackage⟩ := Prod.mk.inj (Option.some.inj hchosen)
    have hresponse := generate_outcome henv
    obtain ⟨hnames, -, -, hdistinct⟩ := nodup_names_iff henv hresponse
    exact ⟨_, hresponse, hnames.trans (by decide +kernel),
      hdistinct hpaths hpackage (by decide) (twins_targets _)⟩

end Request

end GoBindings
