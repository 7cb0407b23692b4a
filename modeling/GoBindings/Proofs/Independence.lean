/-
  GoBindings/Proofs/Independence.lean
  ===================================
  **Targets do not depend on each other.**

  What becomes of a target depends on other targets only through the identifiers
  that they own in its Go package. A target that fails or declares no services owns
  none, and one that is alone in its package owns none that matter. Such a target can
  be left out, and every other one ends as before: with the same file, in silence, or
  with the same fault (`settleAll_eraseIdx`).

  Two runs are compared that differ in one package only (`AgreeOff`). One target after
  the other they stay so, and report the same (`settle_agreeOff`).
-/
import GoBindings.Proofs.Drafts

namespace GoBindings

theorem Traced.bind_congr {α β : Type} {x : Traced α} {f g : α → Traced β}
    (h : ∀ a, x.outcome = .ok a → f a = g a) : x >>= f = x >>= g := by
  obtain ⟨events, outcome⟩ := x
  cases outcome with
  | error fault => rfl
  | ok a =>
    have ha := h a rfl
    simp only [bind, andThen, ha]

theorem Traced.map_eq {α β : Type} (f : α → β) (x : Traced α) :
    f <$> x = ⟨x.events, x.outcome.map f⟩ := by
  obtain ⟨events, outcome⟩ := x
  cases outcome with
  | error fault => rfl
  | ok a => exact congrArg (Traced.mk · (.ok (f a))) (List.append_nil events)

namespace Environment

variable {env : Environment} {r s : Registry} {target path : String}

/-! ### One target and two registries -/

/-- How a target ends, as told by what was generated for it. -/
def conclude (target : String) (tried : Traced (Option OutputFile)) : Settled :=
  match tried.outcome with
  | .ok (some output) =>
    ⟨target, tried.events ++ [.generatedFile target output.name], .generated output⟩
  | .ok none => ⟨target, tried.events, .nothing⟩
  | .error fault => ⟨target, tried.events ++ [.generationFailed target fault], .failed fault⟩

theorem settle_fst (env : Environment) (r : Registry) (target : String) :
    (env.settle r target).1 = conclude target (Prod.fst <$> env.attempt r target) := by
  unfold settle conclude
  rw [Traced.map_eq]
  generalize env.attempt r target = tried
  obtain ⟨events, outcome⟩ := tried
  cases outcome with
  | error fault => rfl
  | ok result =>
    obtain ⟨output, next⟩ := result
    cases output <;> rfl

/-- The Go package that output for a target belongs to, if there is a file for it. -/
def outputPath? (env : Environment) (target : String) : Option String :=
  (env.files.find? (·.name == target)).map fun f => (env.outputPackage f).importPath

theorem path_of_draftFor {d : Draft} (h : (env.draftFor target).outcome = .ok (some d)) :
    env.outputPath? target = some d.package.importPath := by
  unfold draftFor at h
  split at h
  case h_1 f hfind => rw [outputPath?, hfind, Option.map_some, (draft_ok h).2.1]
  case h_2 => exact nomatch h

theorem finish_sameAt {d : Draft} (h : Registry.SameAt d.package.importPath r s) :
    Prod.fst <$> env.finish r (some d) = Prod.fst <$> env.finish s (some d) := by
  simp only [finish, map_bind, map_pure]
  obtain ⟨fault, hr, hs⟩ | ⟨r', s', hr, hs, -⟩ := Draft.claim_sameAt h
  · rw [hr, hs]
  · rw [hr, hs]
    rfl

/-- Drafts are made without the registry, so what is reported of a target is settled by what
    is left to do with its draft. -/
theorem settle_congr
    (h : ∀ drafted, (env.draftFor target).outcome = .ok drafted →
      Prod.fst <$> env.finish r drafted = Prod.fst <$> env.finish s drafted) :
    (env.settle r target).1 = (env.settle s target).1 := by
  have hattempt : Prod.fst <$> env.attempt r target = Prod.fst <$> env.attempt s target := by
    rw [attempt_eq, attempt_eq, map_bind, map_bind]
    exact Traced.bind_congr h
  rw [settle_fst, settle_fst, hattempt]

/-- Registries that have the same owners in the package of a target report the same of it. -/
theorem settle_sameAt
    (h : ∀ path, env.outputPath? target = some path → Registry.SameAt path r s) :
    (env.settle r target).1 = (env.settle s target).1 := by
  refine settle_congr fun drafted hdraft => ?_
  cases drafted with
  | none => rfl
  | some d => exact finish_sameAt (h _ (path_of_draftFor hdraft))

/-- Two registries have the same owners in all packages but one. -/
def AgreeOff (path : String) (r s : Registry) : Prop :=
  ∀ other, other ≠ path → Registry.SameAt other r s

/-- A target of another package keeps two registries alike outside of a package. -/
theorem settle_agreeOff (h : AgreeOff path r s) (htarget : env.outputPath? target ≠ some path) :
    (env.settle r target).1 = (env.settle s target).1 ∧
      AgreeOff path (env.settle r target).2 (env.settle s target).2 := by
  have hreport : (env.settle r target).1 = (env.settle s target).1 :=
    settle_sameAt fun other hother => h other fun heq => htarget (heq ▸ hother)
  have hpublication := congrArg env.publicationOf? hreport
  refine ⟨hreport, fun other hother => ?_⟩
  obtain ⟨p, hp, -, hr, -⟩ | ⟨hp, hr, -⟩ := publicationOf?_settle env r target <;>
    obtain ⟨q, hq, -, hs, -⟩ | ⟨hq, hs, -⟩ := publicationOf?_settle env s target <;>
    rw [hp, hq] at hpublication
  · -- both claim for the same draft, in its package alike and elsewhere not at all
    obtain rfl : p = q := Option.some.inj hpublication
    by_cases hpath : p.draft.package.importPath = other
    · subst hpath
      obtain ⟨fault, hfault, -⟩ | ⟨r', s', hr', hs', hsame⟩ :=
        @Draft.claim_sameAt env p.draft r s (h _ hother)
      · exact nomatch hr.symm.trans hfault
      · rw [hr] at hr'
        rw [hs] at hs'
        rwa [Except.ok.inj hr', Except.ok.inj hs']
    · intro ident
      rw [Draft.owner?_claim_of_ne hr hpath, Draft.owner?_claim_of_ne hs hpath]
      exact h other hother ident
  · exact nomatch hpublication
  · exact nomatch hpublication
  · rw [hr, hs]
    exact h other hother

/-- Targets of other packages report the same in both runs. -/
theorem settleAll_agreeOff {targets : List String} (h : AgreeOff path r s)
    (htargets : ∀ target ∈ targets, env.outputPath? target ≠ some path) :
    env.settleAll r targets = env.settleAll s targets := by
  induction targets generalizing r s with
  | nil => rfl
  | cons target rest ih =>
    obtain ⟨hreport, hnext⟩ := settle_agreeOff h (htargets target List.mem_cons_self)
    rw [settleAll_cons, settleAll_cons, hreport,
      ih hnext fun later hlater => htargets later (List.mem_cons_of_mem target hlater)]

/-! ### What a target leaves behind -/

/-- A target that fails leaves no claim behind, however many were granted on the way. -/
theorem settle_snd_of_failed {fault : Fault}
    (h : (env.settle r target).1.outcome = .failed fault) : (env.settle r target).2 = r := by
  obtain ⟨p, -, -, -, hgenerated⟩ | ⟨-, hsame, -⟩ := publicationOf?_settle env r target
  · exact nomatch h.symm.trans hgenerated
  · exact hsame

theorem draft_of_services_eq_nil {f : Descriptor.File} (h : f.services = []) :
    (env.draft f).outcome = .ok none := by
  have hcollect : (Service.collect env.custom f).outcome = .ok [] := by
    simp only [Service.collect, Service.reportUnavailable, h, List.isEmpty_nil]
    rfl
  rw [draft, Traced.outcome_bind_ok hcollect]
  rfl

theorem settle_snd_of_services_eq_nil {f : Descriptor.File}
    (hfile : env.files.find? (·.name == target) = some f) (h : f.services = []) :
    (env.settle r target).2 = r := by
  obtain hsame | ⟨p, -, hpublication, -⟩ := settle_cases env r target
  · exact hsame
  · obtain ⟨hsource, hdraft, -⟩ := publication?_ok hpublication
    obtain rfl : f = p.draft.source := Option.some.inj (hfile.symm.trans hsource)
    rw [draft_of_services_eq_nil h] at hdraft
    exact nomatch hdraft

/-- A target changes owners in its own package only. -/
theorem agreeOff_settle (hpath : env.outputPath? target = some path) :
    AgreeOff path (env.settle r target).2 r := by
  intro other hother ident
  obtain hsame | ⟨p, -, hpublication, hclaim⟩ := settle_cases env r target
  · rw [hsame]
  · obtain ⟨hsource, hdraft, -⟩ := publication?_ok hpublication
    rw [outputPath?, hsource, Option.map_some, ← (draft_ok hdraft).2.1] at hpath
    have hne : p.draft.package.importPath ≠ other := fun heq =>
      hother (heq.symm.trans (Option.some.inj hpath))
    exact Draft.owner?_claim_of_ne hclaim hne ident

/-! ### Leaving a target out -/

/-- The target at a position is one that later targets do not depend on. -/
inductive Detachable (env : Environment) (r : Registry) (targets : List String) (i : Nat) : Prop
  | failed {fault : Fault}
      (houtcome : ((env.settleAll r targets)[i]?).map (·.outcome) = some (.failed fault))
  | silent {target : String} {f : Descriptor.File} (htarget : targets[i]? = some target)
      (hfile : env.files.find? (·.name == target) = some f) (hservices : f.services = [])
  | alone {target path : String} (htarget : targets[i]? = some target)
      (hpath : env.outputPath? target = some path)
      (hlater : ∀ later ∈ targets.drop (i + 1), env.outputPath? later ≠ some path)

theorem registryAfter_append (env : Environment) (r : Registry) (before after : List String) :
    env.registryAfter r (before ++ after) =
      env.registryAfter (env.registryAfter r before) after :=
  List.foldl_append

theorem getElem?_settleAll (env : Environment) (r : Registry) (before after : List String)
    (target : String) :
    (env.settleAll r (before ++ target :: after))[before.length]? =
      some (env.settle (env.registryAfter r before) target).1 := by
  have hlength : before.length = (env.settleAll r before).length :=
    (length_settleAll env r before).symm
  rw [settleAll_append, settleAll_cons, hlength,
    List.getElem?_append_right (Nat.le_refl _), Nat.sub_self, List.getElem?_cons_zero]

theorem exists_split {targets : List String} {i : Nat} (hi : i < targets.length) :
    ∃ before target after, targets = before ++ target :: after ∧ i = before.length :=
  ⟨targets.take i, targets[i], targets.drop (i + 1), by simp, by simp [Nat.le_of_lt hi]⟩

theorem registryAfter_of_failed {targets : List String} {i : Nat} {fault : Fault}
    (h : ((env.settleAll r targets)[i]?).map (·.outcome) = some (.failed fault)) :
    env.registryAfter r (targets.take (i + 1)) = env.registryAfter r (targets.take i) := by
  rcases Nat.lt_or_ge i targets.length with hi | hi
  · obtain ⟨before, target, after, rfl, rfl⟩ := exists_split hi
    rw [getElem?_settleAll, Option.map_some, Option.some_inj] at h
    have htake : (before ++ target :: after).take (before.length + 1) = before ++ [target] :=
      List.take_length_add_append 1
    rw [htake, List.take_left, registryAfter_append]
    exact settle_snd_of_failed h
  · rw [List.take_of_length_le hi, List.take_of_length_le (Nat.le_succ_of_le hi)]

/-- After a target that can be left out, those behind it end as they would without it. -/
theorem settleAll_after_detachable {before after : List String}
    (h : env.Detachable r (before ++ target :: after) before.length) :
    env.settleAll (env.settle (env.registryAfter r before) target).2 after =
      env.settleAll (env.registryAfter r before) after := by
  have hat : ∀ t, (before ++ target :: after)[before.length]? = some t → target = t := by
    intro t ht
    simpa using ht
  cases h with
  | failed houtcome =>
    -- the registry is the same one
    rw [getElem?_settleAll, Option.map_some, Option.some_inj] at houtcome
    rw [settle_snd_of_failed houtcome]
  | silent htarget hfile hservices =>
    obtain rfl := hat _ htarget
    rw [settle_snd_of_services_eq_nil hfile hservices]
  | alone htarget hpath hlater =>
    -- the registries differ in the package of the target, where no later one looks
    obtain rfl := hat _ htarget
    have hdrop : (before ++ target :: after).drop (before.length + 1) = after := by
      simp [List.drop_append]
    exact settleAll_agreeOff (agreeOff_settle hpath) (hdrop ▸ hlater)

/-- Without a target that can be left out, the others end as they did. -/
theorem settleAll_eraseIdx {targets : List String} {i : Nat} (h : env.Detachable r targets i) :
    env.settleAll r (targets.eraseIdx i) = (env.settleAll r targets).eraseIdx i := by
  rcases Nat.lt_or_ge i targets.length with hi | hi
  · obtain ⟨before, target, after, rfl, rfl⟩ := exists_split hi
    have hlength : (env.settleAll r before).length = before.length :=
      length_settleAll env r before
    have hrest := settleAll_after_detachable h
    have herase : (before ++ target :: after).eraseIdx before.length = before ++ after := by
      rw [List.eraseIdx_append_of_length_le (Nat.le_refl _), Nat.sub_self,
        List.eraseIdx_cons_zero]
    rw [herase, settleAll_append, settleAll_append, settleAll_cons, hrest,
      List.eraseIdx_append_of_length_le (Nat.le_of_eq hlength), hlength, Nat.sub_self,
      List.eraseIdx_cons_zero]
  · rw [List.eraseIdx_of_length_le hi,
      List.eraseIdx_of_length_le (length_settleAll env r targets ▸ hi)]

end Environment

/-! ### Requests -/

namespace Request

/-- The request without the target at a position. -/
def without (request : Request) (i : Nat) : Request :=
  { request with targets := request.targets.eraseIdx i }

theorem environment?_without (request : Request) (i : Nat) :
    (request.without i).environment? = request.environment? := rfl

/-- A request that is turned down is answered whatever its targets are. -/
theorem generate_without_of_error {request : Request} {fault : Fault}
    (h : request.environment? = .error fault) (i : Nat) :
    (generate (request.without i)).outcome = (generate request).outcome := by
  unfold generate
  simp only [environment?] at h
  cases hsettings : Settings.parse request.parameter with
  | error fault => simp only [without, hsettings]
  | ok settings =>
    cases hfiles : readFiles request.files with
    | error fault => simp only [without, hsettings, hfiles]; rfl
    | ok files => rw [hsettings, hfiles] at h; cases h

/-- A target that fails, declares no services or is alone in its package can be left out: all
    other targets, in their order, end as before. One that fails has no claims in the
    registry that later targets find. -/
theorem settled_without {request : Request} {i : Nat}
    (h : ∀ env, request.environment? = .ok env →
      env.Detachable Registry.empty request.targets i) :
    (request.without i).settled = request.settled.eraseIdx i ∧
      (generate (request.without i)).outcome =
        (match request.environment? with
        | .ok _ => .ok (Response.ofTargets (request.settled.eraseIdx i))
        | .error _ => (generate request).outcome) ∧
      ∀ env fault, request.environment? = .ok env →
        (request.settled[i]?).map (·.outcome) = some (.failed fault) →
        env.registryAfter Registry.empty (request.targets.take (i + 1)) =
          env.registryAfter Registry.empty (request.targets.take i) := by
  have hsettled : ∀ env, request.environment? = .ok env →
      request.settled = env.settleAll Registry.empty request.targets := by
    intro env henv
    rw [settled, henv]
  have hwithout : (request.without i).settled = request.settled.eraseIdx i := by
    cases henv : request.environment? with
    | error fault => simp only [settled, environment?_without, henv, List.eraseIdx_nil]
    | ok env =>
      rw [hsettled env henv, settled, environment?_without, henv]
      exact Environment.settleAll_eraseIdx (h env henv)
  refine ⟨hwithout, ?_, fun env fault henv hfailed => ?_⟩
  · cases henv : request.environment? with
    | error fault => exact generate_without_of_error henv i
    | ok env => exact hwithout ▸ generate_outcome (environment?_without request i ▸ henv)
  · exact Environment.registryAfter_of_failed (hsettled env henv ▸ hfailed)

/-- Two files that declare the same identifiers in one Go package. The first one fails after
    all of them were granted to it. -/
def spoilt : Request where
  targets := ["shop.proto", "store.proto"]
  parameter := none
  compilerVersion := none
  files :=
    [sampleFile "shop.proto" "shop" "example.com/shop" ["Cart"]
        [("Shop", [("Order", ".shop.Cart"), ("Cancel", ".shop.Missing")])],
      sampleFile "store.proto" "store" "example.com/shop" [] [("Shop", [("Order", ".shop.Cart")])]]

theorem settled_without_spoilt :
    (spoilt.settled[0]?).map (·.outcome) =
        some (.failed (.unresolvableType ".shop.Missing" "shop.Shop.Cancel")) ∧
      ((spoilt.without 0).settled[0]?).map (·.target) = some "store.proto" ∧
      (spoilt.without 0).settled = spoilt.settled.eraseIdx 0 ∧
      ∀ env, spoilt.environment? = .ok env →
        env.registryAfter Registry.empty (spoilt.targets.take 1) = Registry.empty := by
  have hfailed : (spoilt.settled[0]?).map (·.outcome) =
      some (.failed (.unresolvableType ".shop.Missing" "shop.Shop.Cancel")) := by
    decide +kernel
  have hdetachable : ∀ env, spoilt.environment? = .ok env →
      env.Detachable Registry.empty spoilt.targets 0 := by
    intro env henv
    rw [settled, henv] at hfailed
    exact .failed hfailed
  obtain ⟨hwithout, -, hregistry⟩ := settled_without hdetachable
  exact ⟨hfailed, by decide +kernel, hwithout, fun env henv => hregistry env _ henv hfailed⟩

end Request

end GoBindings
