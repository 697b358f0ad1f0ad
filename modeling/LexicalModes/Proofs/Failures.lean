import LexicalModes.Proofs.Calls
import LexicalModes.Proofs.Runs

/-!
What highlighting can fail with. A scan fails because a search was given up or because a lexeme is
illegal and illegal text is not ignored, and it is stopped when its steps are used up; turning its
events into tokens fails because a search was given up or because a request has no answer. Every
kind of error that includes these is thus kept from the parts to the whole.
-/

namespace LexicalModes

open Pattern

variable {P : HighlightError → Prop} {Q : HighlightFault → Prop}

theorem FailsOnly.traced {α β : Type} {x : Traced α} {f : α → Traced β}
    (hx : FailsOnly P x.value) (hf : ∀ a, x.value = .ok a → FailsOnly P (f a).value) :
    FailsOnly P (x >>= f).value := by
  rw [Traced.value_bind]
  exact hx.bind hf

theorem failsOnly_liftMatch {α : Type} (hmatch : ∀ e, Q (.ofMatchError e))
    (result : Except MatchError α) : FailsOnly Q (liftMatch result) := by
  cases result with
  | ok a => exact failsOnly_ok a
  | error e => exact failsOnly_error.2 (hmatch e)

/-! ### Scans -/

section

variable {g : CompiledGrammar} {ignoreIllegals : Bool} {text : Text}

theorem Scan.failsOnly_checkLegal (hmatch : ∀ e, Q (.ofMatchError e))
    (hillegal : ignoreIllegals = false → ∀ mode lexeme, Q (.illegalLexeme mode lexeme))
    (s : Scan) (lexeme : String) : FailsOnly Q (s.checkLegal g ignoreIllegals lexeme) := by
  rw [checkLegal]
  by_cases hignore : ignoreIllegals = true
  · rw [if_pos hignore]
    exact failsOnly_ok _
  · rw [if_neg hignore]
    split
    · exact failsOnly_ok _
    · refine (failsOnly_liftMatch hmatch _).bind fun found _ => ?_
      split
      · exact failsOnly_error.2 (hillegal (Bool.eq_false_iff.2 hignore) _ _)
      · exact failsOnly_ok _

theorem Scan.failsOnly_step? (hmatch : ∀ e, Q (.ofMatchError e))
    (hillegal : ignoreIllegals = false → ∀ mode lexeme, Q (.illegalLexeme mode lexeme))
    (s : Scan) : FailsOnly Q (s.step? g ignoreIllegals text) := by
  rw [step?]
  split
  · exact failsOnly_ok _
  · refine (failsOnly_liftMatch hmatch _).bind fun found _ => ?_
    cases found with
    | none => exact failsOnly_ok _
    | some span =>
        apply FailsOnly.map
        rw [dispatch_eq]
        refine (failsOnly_liftMatch hmatch _).bind fun t _ => ?_
        refine FailsOnly.bind ?_ fun _ _ => failsOnly_ok _
        cases t with
        | passes => exact failsOnly_checkLegal hmatch hillegal _ _
        | _ => exact failsOnly_ok _

theorem failsOnly_scan (hmatch : ∀ e, P (.ofMatchError e))
    (hillegal : ignoreIllegals = false → ∀ mode lexeme, P (.illegalLexeme mode lexeme))
    (hendless : P .endless) (limit : StepLimit) (stack : Stack) (content : String) :
    FailsOnly P (scan g limit ignoreIllegals stack content).outcome := by
  obtain ⟨steps, s, -, ⟨-, hscan⟩ | ⟨e, hfault, hscan⟩⟩ :=
    exists_run_of_scan g limit ignoreIllegals stack content
  · rw [hscan]
    exact failsOnly_ok _
  · have he : P e := by
      rcases hfault with rfl | ⟨fault, rfl, hfault⟩
      · exact hendless
      · exact Scan.failsOnly_step? (Q := fun fault => P (.failed fault)) hmatch hillegal s fault
          hfault
    rw [hscan]
    exact failsOnly_error.2 he

end

/-! ### Requests -/

/-- The embedding fails the request with this error. -/
def Embedding.Fails (embedding : Embedding) : Request → HighlightError → Prop
  | .fixed name content continuation, e =>
    (embedding.fixed name content continuation).value = .error e
  | .auto names content, e => (embedding.auto names content).value = .error e

namespace Emission

variable {g : CompiledGrammar} {embedding : Embedding}

theorem failsOnly_add (hmatch : ∀ e, P (.ofMatchError e)) {e : Emission} {event : Event}
    (hrequest : ∀ request ∈ e.request? g event, ∀ fault, embedding.Fails request fault → P fault) :
    FailsOnly P (e.add g embedding event).value := by
  cases event with
  | begins className => exact failsOnly_ok _
  | ends className => exact failsOnly_ok _
  | score weight => exact failsOnly_ok _
  | chunk index content =>
      rw [request?] at hrequest
      rw [add, addChunk]
      cases hsub : (g.mode index).subLanguage with
      | none =>
          dsimp only
          split
          · exact failsOnly_ok _
          · exact failsOnly_error.2 (hmatch _)
      | some sub =>
          rw [hsub] at hrequest
          cases sub with
          | fixed name =>
              refine FailsOnly.traced (hrequest _ rfl) fun answer _ => ?_
              cases answer with
              | none => exact failsOnly_ok _
              | some result => exact failsOnly_ok _
          | auto names => exact FailsOnly.traced (hrequest _ rfl) fun _ _ => failsOnly_ok _

theorem failsOnly_addAll (hmatch : ∀ e, P (.ofMatchError e)) {e : Emission} {events : List Event}
    (hrequests : ∀ request ∈ requests g embedding e events,
      ∀ fault, embedding.Fails request fault → P fault) :
    FailsOnly P (addAll g embedding e events).value := by
  induction events generalizing e with
  | nil => exact failsOnly_ok _
  | cons event rest ih =>
      rw [addAll]
      refine FailsOnly.traced (failsOnly_add hmatch fun request hmem => ?_) fun next hnext => ?_
      · exact hrequests request (List.mem_append_left _ (Option.mem_toList.2 hmem))
      · simp only [requests, hnext] at hrequests
        exact ih fun request hmem => hrequests request (List.mem_append_right _ hmem)

end Emission

end LexicalModes
