import YdeltaCrankers.Handlers.Reads
import YdeltaCrankers.Process.Memory

/-!
# What a handler does with a key

A handler works on an entry while the entry's key is in its in-flight set: it claims the key, makes
its attempt and releases the key, whatever came of the attempt (`withInflight_spec`).  That nothing
but an error ends an attempt is the subject of the first section.
-/

namespace YdeltaCrankers

open Interaction

/-! ### No panic -/

section NoPanic

variable {α : Type}

/-- As long as no method of `Rpc` panics, `x` fails with errors only. -/
abbrev ErrorsOnly (x : Async Service α) : Prop := x.FailsOnly Service.Calm Failure.IsError

theorem errorsOnly_rpc (c : RpcCall) : ErrorsOnly (Service.rpc c) :=
  Fallible.failsOnly_ask fun _ hA err hr => hA err hr

theorem errorsOnly_process (c : ProcessCall) : ErrorsOnly (Service.process c) :=
  Fallible.failsOnly_ask fun _ _ _ => nofun

theorem errorsOnly_bail (msg : String) : ErrorsOnly (bail msg : Async Service α) :=
  Fallible.failsOnly_throw ⟨_, rfl⟩

theorem errorsOnly_liftError (r : Except Error α) : ErrorsOnly (liftError r) := by
  refine Fallible.failsOnly_result fun err h => ?_
  cases r <;> cases h
  exact ⟨_, rfl⟩

/-- A caught error is gone. -/
theorem ErrorsOnly.caught {x : Async Service α} (h : ErrorsOnly x) :
    (Service.caught x).FailsOnly Service.Calm fun _ => False :=
  Fallible.FailsOnly.attempt h (by rintro _ ⟨e, rfl⟩; exact nofun)

theorem ErrorsOnly.of_never {x : Async Service α}
    (h : x.FailsOnly Service.Calm fun _ => False) : ErrorsOnly x :=
  Fallible.FailsOnly.mono h fun _ => False.elim

theorem errorsOnly_banksSnapshot : ErrorsOnly Config.banksSnapshot := by
  refine (errorsOnly_process _).bind fun r => ?_
  cases r <;> exact Fallible.failsOnly_pure _

end NoPanic

/-! ### While a key is in the in-flight set -/

/-- The call claims or releases a key. -/
def ServiceCall.TouchesInflight (c : ServiceCall) : Prop :=
  ∃ key, c = .process (.claimInflight key) ∨ c = .process (.releaseInflight key)

theorem ServiceCall.not_touchesInflight {c : ServiceCall} (h : c.Reads ∨ c.Sends) :
    ¬ c.TouchesInflight := by
  rintro ⟨key, rfl | rfl⟩ <;> exact h.elim False.elim nofun

theorem Memory.inflight_after {y : Ydelta} (s : Memory) {c : ServiceCall} (r : c.Reply)
    (h : ¬ c.TouchesInflight) : (s.after y c r).inflight = s.inflight := by
  cases c with
  | rpc c => cases c <;> rfl
  | client c => cases c <;> rfl
  | process c =>
    cases c with
    | claimInflight key => exact absurd ⟨key, .inl rfl⟩ h
    | releaseInflight key => exact absurd ⟨key, .inr rfl⟩ h
    | _ => rfl

/-- What `withInflight` does when `body` does not panic. -/
inductive Window (key : InflightKey) (body : Async Service Bool) : Service.Trace → Prop
  | skipped : Window key body [⟨.process (.claimInflight key), false⟩]
  | ran {t : Service.Trace} {r : Except Failure Bool} (h : body.run.Runs t r) :
      Window key body ((⟨.process (.claimInflight key), true⟩ : Service.Event) ::
        (t ++ [⟨.process (.releaseInflight key), ()⟩]))

theorem withInflight_spec {key : InflightKey} {body : Async Service Bool}
    (hbody : ErrorsOnly body) :
    (withInflight key body).Spec fun t r => (∀ e ∈ t, Service.Calm e) →
      Window key body t ∧ ∃ res, r = .ok res := by
  have hcaught : (Service.caught body).Spec fun t r => (∃ r₀, body.run.Runs t r₀) ∧
      ((∀ e ∈ t, Service.Calm e) → ∀ err, r = .error err → False) :=
    Fallible.Spec.and (Fallible.spec_attempt (fun _ _ h => h) (fun _ _ h => ⟨_, h⟩)
      (fun _ _ _ h _ => ⟨_, h⟩) fun _ _ h _ => ⟨_, h⟩) hbody.caught
  refine Fallible.spec_query_bind fun claimed => ?_
  cases claimed with
  | false =>
    refine Fallible.spec_ite nofun fun _ => Fallible.spec_pure fun _ => ⟨.skipped, _, rfl⟩
  | true =>
    refine Fallible.spec_ite (fun _ => ?_) fun h => absurd rfl h
    refine Fallible.spec_bind hcaught (fun t e h hcalm => ?_) fun t res h => ?_
    · exact (h.2 (fun e he => hcalm e (List.mem_cons_of_mem _ he)) e rfl).elim
    · obtain ⟨⟨r₀, hr₀⟩, -⟩ := h
      refine Fallible.spec_query_bind fun _ => Fallible.spec_pure fun _ => ⟨.ran hr₀, res, rfl⟩

end YdeltaCrankers
