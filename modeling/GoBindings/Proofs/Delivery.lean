/-
  GoBindings/Proofs/Delivery.lean
  ===============================
  **What the caller gets of a response.**

  The bytes that arrive in a sink are a beginning of the response, and all of it if nothing is
  reported; what is reported is why the sink failed (`Response.sendTo_eq_none_iff`,
  `Response.report_sendTo`). A run without arguments ends well exactly if the bytes that it reads
  have a response, which it then writes whole (`answer_of_source`).
-/
import GoBindings.CommandLine

namespace GoBindings

/-! ### Sending -/

namespace Sink

variable {k : Sink} {bytes : List UInt8}

theorem accepted_prefix (k : Sink) (bytes : List UInt8) : k.accepted bytes <+: bytes := by
  unfold accepted
  split
  · exact List.prefix_rfl
  · exact List.take_prefix _ _

theorem refusal?_eq_none_iff : k.refusal? bytes = none ↔ k.accepted bytes = bytes := by
  unfold refusal? accepted
  cases k.limit with
  | none => simp
  | some limit =>
    have htake : bytes.take limit.1 = bytes ↔ bytes.length ≤ limit.1 := by
      constructor
      · intro h
        exact h ▸ List.length_take_le _ _
      · exact List.take_of_length_le
    simp [Option.filter_eq_none_iff, htake]

end Sink

namespace Response

variable {r : Response} {k : Sink}

/-- Nothing is reported exactly if all bytes arrived and the sink could be flushed. -/
theorem sendTo_eq_none_iff :
    (r.sendTo k).2 = none ↔ (r.sendTo k).1 = r.encode ∧ k.flushFailure = none := by
  rw [sendTo, ← Sink.refusal?_eq_none_iff]
  cases k.refusal? r.encode <;> simp

/-- What is reported is a failure of the sink, in the words of the sink. -/
theorem report_sendTo {report : Report} (h : (r.sendTo k).2 = some report) :
    (∃ room cause, k.limit = some (room, cause) ∧ room < r.encode.length ∧
        report = .unwritten cause) ∨
      ∃ cause, k.flushFailure = some cause ∧ report = .unflushed cause := by
  unfold sendTo at h
  cases hrefusal : k.refusal? r.encode with
  | some cause =>
    simp only [hrefusal, Option.some.injEq] at h
    obtain ⟨⟨room, said⟩, hlimit, rfl⟩ := Option.map_eq_some_iff.mp hrefusal
    obtain ⟨hlimit, hroom⟩ := Option.filter_eq_some_iff.mp hlimit
    exact .inl ⟨room, said, hlimit, of_decide_eq_true hroom, h.symm⟩
  | none =>
    simp only [hrefusal] at h
    obtain ⟨cause, hcause, rfl⟩ := Option.map_eq_some_iff.mp h
    exact .inr ⟨cause, hcause, rfl⟩

end Response

/-! ### Answering -/

theorem generateFromBytes_outcome (bytes : List UInt8) :
    (generateFromBytes bytes).outcome =
      (Request.decode bytes).bind fun request => (generate request).outcome := by
  rw [generateFromBytes, Traced.outcome_bind, Traced.outcome_ofExcept]
  rfl

/-- The bytes of a source that just ends decide how the program ends: with the response to them,
    or with a failure and no output. -/
theorem answer_of_source (config : LogConfig) (chunks : List (List UInt8)) :
    (∀ response, (generateFromBytes chunks.flatten).outcome = .ok response →
        (answer config ⟨chunks, none⟩).status = 0 ∧
          (answer config ⟨chunks, none⟩).stdout = response.encode) ∧
      ∀ fault, (generateFromBytes chunks.flatten).outcome = .error fault →
        (answer config ⟨chunks, none⟩).status = 1 ∧ (answer config ⟨chunks, none⟩).stdout = [] := by
  rw [generateFromBytes_outcome, answer, Request.receive]
  cases Request.decode chunks.flatten with
  | error fault => simp [Except.bind, Finish.reported, Finish.failed]
  | ok request =>
    dsimp only [Except.bind]
    cases (generate request).outcome <;> simp [Finish.failed]

/-- A source that fails is not answered, whatever came before. -/
theorem answer_of_failure (config : LogConfig) (chunks : List (List UInt8)) (cause : String) :
    answer config ⟨chunks, some cause⟩ = Finish.failed config.notice
      "failed to read CodeGeneratorRequest from stdin" cause := rfl

end GoBindings
