/-
  GoBindings/Proofs/Fatality.lean
  ===============================
  **Which faults end the run.**

  A fault is fatal or belongs to one file, and it is dealt with as it says. No step of
  generating for a file has a fatal fault (`Environment.failsWith_generateFile`): each has
  faults of its own kind, and none of the kinds is fatal. The run as a whole ends over one
  fault only, a file that cannot be read, and looks for that only behind a parameter that is
  accepted (`generate_outcome_of_readFiles_error`).
-/
import GoBindings.Proofs.Faults
import GoBindings.Proofs.Keys

namespace GoBindings

/-! ### Kinds of faults that belong to one file -/

namespace Fault

variable {fault : Fault}

/-- The fault does not end the run. -/
abbrev IsScoped (fault : Fault) : Prop := fault.isFatal = false

theorem IsUnservable.isScoped (h : fault.IsUnservable) : fault.IsScoped := by cases h <;> rfl

theorem IsRuntimeName.isScoped (h : fault.IsRuntimeName) : fault.IsScoped := by cases h <;> rfl

theorem IsCollision.isScoped (h : fault.IsCollision) : fault.IsScoped := by cases h; rfl

theorem IsUnresolvable.isScoped (h : fault.IsUnresolvable) : fault.IsScoped := by cases h; rfl

theorem IsModule.isScoped (h : fault.IsModule) : fault.IsScoped := by cases h; rfl

end Fault

theorem Placement.failsWith_outputName (sourceName : String) (source output : Go.Package)
    (settings : Settings) :
    FailsWith Fault.IsModule (outputName sourceName source output settings) := by
  unfold outputName
  split
  · exact .ok _
  · split
    · exact .ok _
    · exact .error (.intro _)

/-! ### One file -/

namespace Environment

variable {env : Environment} {r : Registry} {target : String}

theorem failsWith_draft (env : Environment) (f : Descriptor.File) :
    FailsWith Fault.IsScoped (env.draft f).outcome := by
  refine .bind_outcome ((Service.failsWith_collect env.custom f).mono fun _ h => h.isScoped)
    fun services => ?_
  split
  · exact .bind_outcome (.ok ()) fun _ => .ok _
  · refine .bind_outcome ((Placement.failsWith_outputName _ _ _ _).mono fun _ h => h.isScoped)
      fun _ => .bind_outcome ((failsWith_nameServices _ _).mono ?_) fun _ => .ok _
    rintro fault (hname | hcollision)
    · exact hname.isScoped
    · exact hcollision.isScoped

/-- Whatever the file, the index, the pool, the settings and the registry are, no fatal fault
    comes of generating for a file. -/
theorem failsWith_generateFile (env : Environment) (r : Registry) (f : Descriptor.File) :
    FailsWith Fault.IsScoped (env.generateFile r f).outcome := by
  rw [generateFile_eq]
  refine .bind_outcome (failsWith_draft env f) fun drafted =>
    (failsWith_finish env r drafted).mono ?_
  rintro fault (hcollision | hunresolvable)
  · exact hcollision.isScoped
  · exact hunresolvable.isScoped

theorem failsWith_attempt (env : Environment) (r : Registry) (target : String) :
    FailsWith Fault.IsScoped (env.attempt r target).outcome := by
  unfold attempt
  split
  · exact failsWith_generateFile env r _
  · exact .error rfl

theorem isScoped_of_mem_settleAll {targets : List String} {s : Settled} {fault : Fault}
    (hs : s ∈ env.settleAll r targets) (hfailed : s.outcome = .failed fault) :
    fault.IsScoped := by
  induction targets generalizing r with
  | nil => exact absurd hs List.not_mem_nil
  | cons target rest ih =>
    rcases List.mem_cons.mp hs with rfl | hrest
    · exact failsWith_attempt env r target fault (settle_failed_iff.mp hfailed)
    · exact ih hrest

end Environment

/-! ### The run -/

/-- Files cannot be read over one fault, which says that one of them is no declaration. -/
theorem readFiles_eq_error_iff {files : List (List UInt8)} {fault : Fault} :
    readFiles files = .error fault ↔
      fault = .undecodable ∧ ∃ bytes ∈ files, Descriptor.File.read? bytes = none := by
  rw [← mapM_eq_none_iff]
  unfold readFiles
  cases files.mapM Descriptor.File.read? with
  | none => simpa using eq_comm
  | some declared => simp

namespace Request

variable {request : Request} {fault : Fault}

theorem generate_outcome_of_parse_error
    (h : Settings.parse request.parameter = .error fault) :
    (generate request).outcome = .ok (Response.failed fault) := by
  unfold generate
  rw [h]

theorem generate_outcome_of_readFiles_error {settings : Settings}
    (hsettings : Settings.parse request.parameter = .ok settings)
    (hfiles : readFiles request.files = .error fault) :
    (generate request).outcome = .error fault := by
  unfold generate
  rw [hsettings]
  exact Traced.outcome_bind_error (by rw [Traced.outcome_ofExcept, hfiles]) _

/-- A run ends over a fault exactly if some file cannot be read though the parameter is fine. -/
theorem generate_outcome_eq_error_iff :
    (generate request).outcome = .error fault ↔
      (∃ settings, Settings.parse request.parameter = .ok settings) ∧
        readFiles request.files = .error fault := by
  cases hsettings : Settings.parse request.parameter with
  | error refusal => simp [generate_outcome_of_parse_error hsettings]
  | ok settings =>
    cases hfiles : readFiles request.files with
    | error unreadable =>
      simp [generate_outcome_of_readFiles_error hsettings hfiles]
    | ok files =>
      have henv : request.environment? =
          .ok (Environment.build files settings request.compilerVersion) :=
        environment?_eq_ok_iff.mpr ⟨settings, files, hsettings, hfiles, rfl⟩
      simp [generate_outcome henv]

/-- Faults go where their kind says. The run ends over a fault exactly if the parameter is
    accepted and some file cannot be read, and then over a fatal one; a parameter that is turned
    down is answered with its fault and no files, whether or not the files can be read; and what
    generating for a file ends over is never fatal, in whatever environment, so that no fault of a
    target is. -/
theorem fatal_iff_ends_run (request : Request) :
    ((∃ fault, (generate request).outcome = .error fault) ↔
        (∃ settings, Settings.parse request.parameter = .ok settings) ∧
          ∃ bytes ∈ request.files, Descriptor.File.read? bytes = none) ∧
      (∀ fault, (generate request).outcome = .error fault → fault.isFatal = true) ∧
      (∀ fault, Settings.parse request.parameter = .error fault →
        ∃ response, (generate request).outcome = .ok response ∧ response.files = [] ∧
          response.error = some fault.message) ∧
      (∀ (env : Environment) (r : Registry) (f : Descriptor.File) (fault : Fault),
        (env.generateFile r f).outcome = .error fault → fault.isFatal = false) ∧
      ∀ s ∈ request.settled, ∀ fault, s.outcome = .failed fault → fault.isFatal = false := by
  refine ⟨?_, ?_, ?_, ?_, ?_⟩
  · simp only [generate_outcome_eq_error_iff, readFiles_eq_error_iff]
    constructor
    · rintro ⟨fault, hparameter, -, hunreadable⟩
      exact ⟨hparameter, hunreadable⟩
    · rintro ⟨hparameter, hunreadable⟩
      exact ⟨.undecodable, hparameter, rfl, hunreadable⟩
  · intro fault h
    obtain ⟨-, hfiles⟩ := generate_outcome_eq_error_iff.mp h
    rw [(readFiles_eq_error_iff.mp hfiles).1]
    rfl
  · intro fault h
    exact ⟨_, generate_outcome_of_parse_error h, rfl, rfl⟩
  · intro env r f fault h
    exact Environment.failsWith_generateFile env r f fault h
  · intro s hs fault hfailed
    unfold settled at hs
    split at hs
    · exact Environment.isScoped_of_mem_settleAll hs hfailed
    · exact absurd hs List.not_mem_nil

/-- A request with a file that cannot be read, behind one that can but fails. -/
def unreadable (parameter : Option String) : Request where
  targets := ["shop.proto"]
  parameter
  compilerVersion := none
  files :=
    [Wire.writeText 1 "shop.proto" ++ Wire.writeBytes 6 (Wire.writeText 1 "Shop"
      ++ Wire.writeBytes 2 (Wire.writeText 1 "Order")), [0xff, 0xff]]

/-- The unreadable file ends the run behind an accepted parameter and is not noticed behind
    another. The fault of the file before it, met on its own, is not fatal. -/
theorem fatal_iff_ends_run_unreadable :
    (∃ fault, (generate (unreadable none)).outcome = .error fault ∧ fault.isFatal = true) ∧
      (∃ response, (generate (unreadable (some "paths"))).outcome = .ok response ∧
        response.files = [] ∧
        response.error = some "invalid value for option \"paths\": expected key=value") ∧
      ∃ s ∈ Request.settled { unreadable none with files := (unreadable none).files.take 1 },
        ∃ fault, s.outcome = .failed fault ∧ fault.isFatal = false := by
  obtain ⟨hends, hfatal, -⟩ := fatal_iff_ends_run (unreadable none)
  obtain ⟨-, -, hturnedDown, -⟩ := fatal_iff_ends_run (unreadable (some "paths"))
  have hparse : Settings.parse (unreadable (some "paths")).parameter =
      .error (.invalidOption "paths" "expected key=value") := by
    decide +kernel
  refine ⟨?_, ?_, ?_⟩
  · have hread : Descriptor.File.read? [0xff, 0xff] = none := rfl
    obtain ⟨fault, hfault⟩ := hends.mpr
      ⟨⟨_, rfl⟩, [0xff, 0xff], List.mem_cons_of_mem _ List.mem_cons_self, hread⟩
    exact ⟨fault, hfault, hfatal fault hfault⟩
  · obtain ⟨response, hresponse, hfiles, herror⟩ := hturnedDown _ hparse
    exact ⟨response, hresponse, hfiles, herror.trans (by decide +kernel)⟩
  · let alone : Request := { unreadable none with files := (unreadable none).files.take 1 }
    obtain ⟨-, -, -, -, htargets⟩ := fatal_iff_ends_run alone
    have hfailed : (alone.settled.head?).map (·.outcome) =
        some (.failed (.malformedDescriptor "method Shop.Order has no input type")) := by
      decide +kernel
    obtain ⟨s, hs, houtcome⟩ := Option.map_eq_some_iff.mp hfailed
    have hmem : s ∈ alone.settled := List.mem_of_mem_head? hs
    exact ⟨s, hmem, _, houtcome, htargets s hmem _ houtcome⟩

end Request

end GoBindings
