import LexicalModes.Proofs.Emitted
import LexicalModes.Proofs.Runs

/-!
Limits do not matter to a computation that they do not stop. Where the steps of a scan are used up,
what it has found so far stands at the front of what it finds with more steps (`scan_of_le`); where
languages are embedded too deep, a request has no answer. No caller takes a limit for anything else,
so with more steps and more depth every computation comes to what it came to before, be it a result
or a fault, unless it was stopped (`Relaxes`). And a run of steps, which no limit bounds, is that of
a scan that is allowed one step more than the run has (`scan_of_run`), so what holds of scans for
all limits holds for every run that comes to an end.
-/

namespace LexicalModes

open Pattern

/-- The second outcome is the first, unless that was stopped at a limit. -/
def Relaxes {α : Type} (x y : Except HighlightError α) : Prop :=
  (∃ limit, x = .error (.stopped limit)) ∨ y = x

section Relaxes

variable {α β : Type}

theorem Relaxes.refl (x : Except HighlightError α) : Relaxes x x := .inr rfl

theorem Relaxes.eq_ok {x y : Except HighlightError α} {a : α} (h : Relaxes x y) (hx : x = .ok a) :
    y = .ok a := by
  rcases h with ⟨limit, h⟩ | h
  · rw [hx] at h
    cases h
  · rw [h, hx]

theorem Relaxes.bind {x y : Except HighlightError α} {f f' : α → Except HighlightError β}
    (h : Relaxes x y) (hf : ∀ a, Relaxes (f a) (f' a)) : Relaxes (x >>= f) (y >>= f') := by
  rcases h with ⟨limit, rfl⟩ | rfl
  · exact .inl ⟨limit, rfl⟩
  · cases y with
    | error e => exact .refl _
    | ok a => exact hf a

theorem Relaxes.traced {x y : Traced α} {f f' : α → Traced β} (h : Relaxes x.value y.value)
    (hf : ∀ a, Relaxes (f a).value (f' a).value) :
    Relaxes (x >>= f).value (y >>= f').value := by
  rw [Traced.value_bind, Traced.value_bind]
  exact h.bind hf

theorem Relaxes.orVerbatim {x y : Traced Highlighted} (h : Relaxes x.value y.value)
    (content : String) :
    Relaxes (x.orVerbatim content).value (y.orVerbatim content).value := by
  rcases h with ⟨limit, h⟩ | h
  · rw [Traced.orVerbatim, h]
    exact .inl ⟨limit, h⟩
  · rw [Traced.orVerbatim, Traced.orVerbatim, h]
    refine .inr ?_
    split
    · rfl
    · exact h

end Relaxes

/-! ### Steps of a scan -/

section Scans

variable (g : CompiledGrammar) (ignoreIllegals : Bool) (text : Text)

/-- A run that is allowed more steps is the same, or goes on where the steps were used up. -/
theorem Scan.run_of_le {fuel more : Nat} (hle : fuel ≤ more) (s : Scan) :
    run g ignoreIllegals text more s = run g ignoreIllegals text fuel s ∨
      (run g ignoreIllegals text fuel s).2 = some .endless ∧
        Reaches g ignoreIllegals text (run g ignoreIllegals text fuel s).1
          (run g ignoreIllegals text more s).1 := by
  induction fuel generalizing more s with
  | zero => exact .inr ⟨rfl, reaches_run more s⟩
  | succ fuel ih =>
      cases more with
      | zero => exact absurd hle (Nat.not_succ_le_zero fuel)
      | succ more =>
          rw [run, run]
          split
          case h_1 next hnext => exact ih (Nat.le_of_succ_le_succ hle) next
          case h_2 => exact .inl rfl
          case h_3 => exact .inl rfl

variable {g ignoreIllegals text}

/-- As many steps as a run has lead to where it does. -/
theorem Scan.Run.run_add {first last : Scan} {steps : List Step}
    (h : Run g ignoreIllegals text first steps last) (fuel : Nat) :
    run g ignoreIllegals text (steps.length + fuel) first =
      run g ignoreIllegals text fuel last := by
  induction h generalizing fuel with
  | nil => rw [List.length_nil, Nat.zero_add]
  | @snoc steps step _ htaken ih =>
      have hnext : step.state.step? g ignoreIllegals text = .ok (some (step.result g text)) :=
        next_iff_exists_step.2 ⟨step, rfl, htaken, rfl⟩
      rw [List.length_append, List.length_singleton, Nat.add_assoc, Nat.add_comm 1, ih, run, hnext]

variable {limit more : StepLimit} {stack : Stack} {content : String}

variable (ignoreIllegals) in
/-- What a scan has found when its steps are used up stands at the front of what it finds with more
steps. -/
theorem scan_of_le
    (hle : limit g (Text.ofString content) stack ≤ more g (Text.ofString content) stack) :
    scan g more ignoreIllegals stack content = scan g limit ignoreIllegals stack content ∨
      (scan g limit ignoreIllegals stack content).outcome = .error .endless ∧
        (scan g limit ignoreIllegals stack content).events <+:
          (scan g more ignoreIllegals stack content).events := by
  have hrun := Scan.run_of_le g ignoreIllegals (Text.ofString content) hle (Scan.initial g stack)
  rcases hfirst : Scan.run g ignoreIllegals (Text.ofString content)
    (limit g (Text.ofString content) stack) (Scan.initial g stack) with ⟨s, stopped⟩
  rcases hsecond : Scan.run g ignoreIllegals (Text.ofString content)
    (more g (Text.ofString content) stack) (Scan.initial g stack) with ⟨s', outcome⟩
  rw [hfirst, hsecond] at hrun
  rw [Scan.initial] at hfirst hsecond
  rcases hrun with hsame | ⟨rfl, hreaches⟩
  · cases hsame
    left
    simp only [scan, hfirst, hsecond]
  · right
    have hgoesOn : s'.GoesOn s.events := Scan.goesOn_of_reaches hreaches
    simp only [scan, hfirst, hsecond, true_and]
    cases outcome with
    | some e => exact List.reverse_prefix.2 hgoesOn
    | none =>
        have hfinish : (s'.finish (Text.ofString content)).GoesOn s.events :=
          (hgoesOn.moveTo _ _ _).flush
        exact (List.reverse_prefix.2 hfinish).trans (List.prefix_append _ _)

/-- **Every run** that comes to its end, or to a state where it fails, is that of a scan. -/
theorem scan_of_run {steps : List Scan.Step} {s : Scan}
    (hrun : Scan.Run g ignoreIllegals (Text.ofString content) (Scan.initial g stack) steps s)
    (hlimit : steps.length < limit g (Text.ofString content) stack) :
    (s.step? g ignoreIllegals (Text.ofString content) = .ok none →
      scan g limit ignoreIllegals stack content =
        ⟨(s.finish (Text.ofString content)).events.reverse ++
          (Scan.openClasses g s.stack).reverse.map Event.ends, .ok s.stack⟩) ∧
    ∀ fault, s.step? g ignoreIllegals (Text.ofString content) = .error fault →
      scan g limit ignoreIllegals stack content = ⟨s.events.reverse, .error (.failed fault)⟩ := by
  obtain ⟨spare, hspare⟩ := Nat.exists_eq_add_of_lt hlimit
  have hlast := hrun.run_add (spare + 1)
  rw [← Nat.add_assoc, ← hspare, Scan.run] at hlast
  rw [Scan.initial] at hlast
  constructor
  · intro hdone
    rw [hdone] at hlast
    simp only [scan, hlast, Scan.stack_finish]
  · intro fault hfault
    rw [hfault] at hlast
    simp only [scan, hlast]

end Scans

/-! ### Calls -/

/-- The second embedding allows scans no fewer steps, and answers requests as the first does unless
that is stopped. -/
structure Embedding.RelaxedBy (embedding looser : Embedding) : Prop where
  steps : ∀ g text stack, embedding.stepLimit g text stack ≤ looser.stepLimit g text stack
  fixed : ∀ name content continuation, Relaxes (embedding.fixed name content continuation).value
    (looser.fixed name content continuation).value
  auto : ∀ names content, Relaxes (embedding.auto names content).value
    (looser.auto names content).value

namespace Embedding.RelaxedBy

variable {embedding looser : Embedding} {g : CompiledGrammar}

theorem add (h : embedding.RelaxedBy looser) (e : Emission) (event : Event) :
    Relaxes (e.add g embedding event).value (e.add g looser event).value := by
  cases event with
  | begins className => exact .refl _
  | ends className => exact .refl _
  | score weight => exact .refl _
  | chunk index content =>
      rw [Emission.add, Emission.add, Emission.addChunk, Emission.addChunk]
      split
      case h_1 hsub => exact .refl _
      case h_2 name hsub => exact (h.fixed name content _).traced fun answer => .refl _
      case h_3 names hsub => exact (h.auto names content).traced fun result => .refl _

theorem addAll (h : embedding.RelaxedBy looser) (e : Emission) (events : List Event) :
    Relaxes (Emission.addAll g embedding e events).value
      (Emission.addAll g looser e events).value := by
  induction events generalizing e with
  | nil => exact .refl _
  | cons event rest ih => exact (h.add e event).traced ih

theorem highlightByGrammar (h : embedding.RelaxedBy looser) (name : String)
    (ignoreIllegals : Bool) (stack : Stack) (content : String) :
    Relaxes (highlightByGrammar g embedding name ignoreIllegals stack content).value
      (highlightByGrammar g looser name ignoreIllegals stack content).value := by
  rw [LexicalModes.highlightByGrammar, LexicalModes.highlightByGrammar]
  rcases scan_of_le ignoreIllegals (h.steps g (Text.ofString content) stack) with
    hsame | ⟨hstopped, rest, hrest⟩
  · rw [hsame]
    exact (h.addAll _ _).traced fun _ => .refl _
  · -- The events up to where the scan was stopped are added first, and lead to the same.
    rw [Traced.value_bind, Traced.value_bind, ← hrest, Emission.value_addAll_append, bind_assoc]
    refine (h.addAll _ _).bind fun e => .inl ⟨.steps, ?_⟩
    rw [Traced.value_bind, Traced.value_ofExcept, hstopped]
    rfl

theorem highlightCompiled (h : embedding.RelaxedBy looser) (name : String)
    (grammar : Except CompileError CompiledGrammar) (used : List String) (content : String)
    (options : Options) :
    Relaxes (highlightCompiled embedding name grammar used content options).value
      (highlightCompiled looser name grammar used content options).value := by
  cases grammar with
  | error cause => exact .refl _
  | ok g =>
      refine (Relaxes.refl _).traced fun _ => (Relaxes.refl _).traced fun stack => ?_
      exact (h.highlightByGrammar name _ stack content).orVerbatim content

theorem highlightEntry (h : embedding.RelaxedBy looser) (entry : String × Entry)
    (content : String) (options : Options) :
    Relaxes (Highlighter.highlightEntry embedding entry content options).value
      (Highlighter.highlightEntry looser entry content options).value :=
  h.highlightCompiled _ _ _ _ _

theorem rank (h : embedding.RelaxedBy looser) (content : String)
    (entries : List (String × Entry)) (ranking : Ranking) :
    Relaxes (Highlighter.rank embedding content entries ranking).value
      (Highlighter.rank looser content entries ranking).value := by
  induction entries generalizing ranking with
  | nil => exact .refl _
  | cons entry rest ih => exact (h.highlightEntry entry content {}).traced fun _ => ih _

end Embedding.RelaxedBy

namespace Highlighter

/-- The second highlighter knows the same languages and is allowed no less. -/
structure RelaxedBy (h looser : Highlighter) : Prop where
  registry : looser.registry = h.registry
  candidates : looser.candidates = h.candidates
  steps : ∀ g text stack, h.stepLimit g text stack ≤ looser.stepLimit g text stack
  depth : h.embeddingLimit ≤ looser.embeddingLimit

variable {h looser : Highlighter}

theorem RelaxedBy.refl (h : Highlighter) : h.RelaxedBy h :=
  ⟨rfl, rfl, fun _ _ _ => Nat.le_refl _, Nat.le_refl _⟩

theorem RelaxedBy.entriesAmong (hlooser : h.RelaxedBy looser) (names : List String) :
    looser.entriesAmong names = h.entriesAmong names := by
  rw [Highlighter.entriesAmong, Highlighter.entriesAmong, hlooser.registry, hlooser.candidates]

/-- **Higher limits** answer every request as before that was not stopped by the lower ones. -/
theorem RelaxedBy.embedding (hlooser : h.RelaxedBy looser) {depth deeper : Nat}
    (hle : depth ≤ deeper) : (h.embedding depth).RelaxedBy (looser.embedding deeper) := by
  induction depth generalizing deeper with
  | zero =>
      refine ⟨?_, fun _ _ _ => .inl ⟨.depth, rfl⟩, fun _ _ => .inl ⟨.depth, rfl⟩⟩
      simpa using hlooser.steps
  | succ depth ih =>
      cases deeper with
      | zero => exact absurd hle (Nat.not_succ_le_zero depth)
      | succ deeper =>
          have hbelow := ih (Nat.le_of_succ_le_succ hle)
          refine ⟨hlooser.steps, ?_, ?_⟩
          · intro name content continuation
            simp only [Highlighter.embedding, hlooser.registry]
            cases h.registry.find? name with
            | none => exact .refl _
            | some entry => exact (hbelow.highlightEntry entry content _).traced fun _ => .refl _
          · intro names content
            simp only [Highlighter.embedding, hlooser.entriesAmong]
            exact (hbelow.rank content _ _).traced fun _ => .refl _

/-- **Limits do not matter** to a call that they do not stop: with more steps and more depth it has
the same result or the same fault. -/
theorem RelaxedBy.calls (hlooser : h.RelaxedBy looser) :
    (∀ name content options, Relaxes (h.highlightWith name content options).value
      (looser.highlightWith name content options).value) ∧
    (∀ language content options, Relaxes (h.highlightLanguage language content options).value
      (looser.highlightLanguage language content options).value) ∧
    ∀ content names, Relaxes (h.highlightAmong content names).value
      (looser.highlightAmong content names).value := by
  have hembedding := hlooser.embedding hlooser.depth
  refine ⟨?_, ?_, ?_⟩
  · intro name content options
    rw [highlightWith, highlightWith, hlooser.registry]
    cases h.registry.find? name with
    | none => exact .refl _
    | some entry => exact hembedding.highlightEntry entry content options
  · intro language content options
    exact hembedding.highlightCompiled _ _ _ _ _
  · intro content names
    rw [highlightAmong, highlightAmong, hlooser.entriesAmong]
    exact (hembedding.rank content _ _).traced fun _ => .refl _

end Highlighter

end LexicalModes
