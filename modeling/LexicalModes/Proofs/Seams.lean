import Mathlib.Data.List.DropRight
import LexicalModes.Proofs.Containment
import LexicalModes.Proofs.Emitted

/-!
Calls that take up where the one before finished. The regions of the labelled frames of a
continuation are ended behind the tokens of the call that returns it, and begun again in front of
those of the call that it is given to; between the two lies what the call itself opened and closed
(`Spans`). Tokens that span two continuations are glued to tokens that span the second and a third
by leaving out these ends and begins, and then span the first and the third (`Spans.glue`). By
induction a chain of any number of calls is glued to one stream.
-/

namespace LexicalModes

open Pattern

/-! ### The tokens of a call -/

section Spans

variable (g : CompiledGrammar)

/-- The regions of the labelled frames that a continuation keeps open, the outermost first. -/
def openRegions : Option Continuation → List Scope
  | none => []
  | some c => (Scan.openClasses g c.stack).map Scope.region

/-- The tokens that begin the regions again, the outermost first. -/
def reopeners (c : Option Continuation) : List Token := (openRegions g c).map Token.begins

/-- The tokens that end the regions, the innermost first. -/
def closers (c : Option Continuation) : List Token := (openRegions g c).reverse.map Token.ends

/-- The tokens lead from the regions open before to those open after. -/
structure Spans (start last : Option Continuation) (inner tokens : List Token) : Prop where
  tokens_eq : tokens = reopeners g start ++ inner ++ closers g last
  scopes : scopesAfter? (openRegions g start).reverse inner = some (openRegions g last).reverse

variable {g} {start seam last : Option Continuation} {inner later first second : List Token}

/-- The regions open before the ends at the back of the tokens. -/
theorem Spans.scopesAfter?_front (h : Spans g start last inner first) :
    scopesAfter? [] (reopeners g start ++ inner) = some (openRegions g last).reverse := by
  rw [scopesAfter?_append, reopeners, scopesAfter?_begins, List.append_nil]
  exact h.scopes

theorem Spans.wellNested (h : Spans g start last inner first) : WellNested first := by
  have hclose := scopesAfter?_ends [] (openRegions g last).reverse
  rw [List.append_nil] at hclose
  rw [WellNested, h.tokens_eq, scopesAfter?_append, h.scopesAfter?_front]
  exact hclose

/-- **Gluing** leaves out the ends of the first tokens and the begins of the second. -/
theorem Spans.glue (hfirst : Spans g start seam inner first)
    (hsecond : Spans g seam last later second) :
    Spans g start last (inner ++ later)
      (first.rdrop (closers g seam).length ++ second.drop (reopeners g seam).length) := by
  have hfront : first.rdrop (closers g seam).length = reopeners g start ++ inner := by
    rw [hfirst.tokens_eq]
    exact List.rdrop_append_length
  have hback : second.drop (reopeners g seam).length = later ++ closers g last := by
    rw [hsecond.tokens_eq, List.append_assoc]
    exact List.drop_left
  refine ⟨?_, ?_⟩
  · rw [hfront, hback]
    simp only [List.append_assoc]
  · rw [scopesAfter?_append, hfirst.scopes]
    exact hsecond.scopes

end Spans

theorem openRegions_of_startFor {g : CompiledGrammar} {options : Options} {name : String}
    {stack : Stack} (h : options.startFor name = .ok stack) :
    openRegions g options.continuation = (Scan.openClasses g stack).map Scope.region := by
  rw [Options.startFor] at h
  cases hc : options.continuation with
  | none =>
      rw [hc] at h
      cases h
      rfl
  | some c =>
      rw [hc] at h
      dsimp only at h
      split at h
      · cases h
        rfl
      · cases h

/-- The tokens of a scan that comes to its end lead from the regions of the frames it started with
to those of the frames it finished with. -/
theorem exists_spans_of_highlightByGrammar {h : Highlighter} {depth : Nat} {g : CompiledGrammar}
    {name content : String} {ignoreIllegals : Bool} {stack : Stack} {result : Highlighted}
    {start : Option Continuation}
    (hstart : openRegions g start = (Scan.openClasses g stack).map Scope.region)
    (hresult : (highlightByGrammar g (h.embedding depth) name ignoreIllegals stack content).value =
      .ok result) : ∃ inner, Spans g start result.continuation inner result.tokens := by
  obtain ⟨e, last, he, hlast, rfl⟩ := highlightByGrammar_eq_ok hresult
  obtain ⟨s, hreaches, rfl, hevents⟩ := scan_eq_ok hlast
  rw [hevents, Emission.addAll_append_eq_ok] at he
  obtain ⟨before, hbefore, hends⟩ := he
  -- What was open at first is begun by the first events, and stays at the front.
  have hgoesOn : (s.finish (Text.ofString content)).GoesOn (Scan.initial g stack).events :=
    ((Scan.goesOn_of_reaches hreaches).moveTo _ _ _).flush
  obtain ⟨middle, hmiddle⟩ := List.reverse_prefix.2 hgoesOn
  rw [Scan.initial, List.reverse_reverse] at hmiddle
  have hall := hbefore
  rw [← hmiddle, Emission.addAll_append_eq_ok] at hall
  obtain ⟨opened, hopened, hrest⟩ := hall
  have hbegins : opened.stream.toList = reopeners g start := by
    rw [Emission.stream_addAll_boundaries (fun _ _ => rfl) hopened, reopeners, hstart,
      List.map_map]
    rfl
  have hprefix : reopeners g start <+: before.stream.toList :=
    Emission.prefix_addAll (sealed_begins _) (hbegins ▸ List.prefix_rfl) hrest
  obtain ⟨inner, hinner⟩ := hprefix
  have hscopes : scopesAfter? [] before.stream.toList =
      some ((Scan.openClasses g s.stack).map Scope.region).reverse := by
    have hinStep := Scan.inStep_of_inside (Scan.Inside.finished hreaches)
    rw [Emission.scopesAfter?_inStep hinStep hbefore, Scan.stack_finish]
  refine ⟨inner, ?_, ?_⟩
  · rw [hinner, Emission.stream_addAll_boundaries (fun _ _ => rfl) hends, closers, openRegions,
      ← List.map_reverse, List.map_map]
    rfl
  · rw [← hinner, scopesAfter?_append, reopeners, scopesAfter?_begins, List.append_nil] at hscopes
    exact hscopes

/-! ### Calls one after another -/

/-- The results of calls on texts one after another, each of which takes up where the one before
finished. -/
inductive Successive (Call : String → Option Continuation → Highlighted → Prop) :
    Option Continuation → List String → List Highlighted → Prop
  | nil {start : Option Continuation} : Successive Call start [] []
  | cons {start : Option Continuation} {content : String} {result : Highlighted}
      {contents : List String} {results : List Highlighted} (hcall : Call content start result)
      (hrest : Successive Call result.continuation contents results) :
      Successive Call start (content :: contents) (result :: results)

/-- Where a call takes up that comes after these: where the last of them finished. -/
def resumedAt (start : Option Continuation) (earlier : List Highlighted) : Option Continuation :=
  earlier.foldl (fun _ result => result.continuation) start

namespace Successive

variable {Call : String → Option Continuation → Highlighted → Prop} {start : Option Continuation}
  {contents others : List String} {results earlier later : List Highlighted}

theorem append (hfirst : Successive Call start contents earlier)
    (hsecond : Successive Call (resumedAt start earlier) others later) :
    Successive Call start (contents ++ others) (earlier ++ later) := by
  induction hfirst with
  | nil => exact hsecond
  | cons hcall _ ih => exact .cons hcall (ih hsecond)

theorem of_append (h : Successive Call start contents (earlier ++ later)) :
    ∃ before after, contents = before ++ after ∧ Successive Call start before earlier ∧
      Successive Call (resumedAt start earlier) after later := by
  induction earlier generalizing start contents with
  | nil => exact ⟨[], contents, rfl, .nil, h⟩
  | cons result rest ih =>
      cases h with
      | cons hcall hrest =>
          obtain ⟨before, after, rfl, hbefore, hafter⟩ := ih hrest
          exact ⟨_ :: before, after, rfl, .cons hcall hbefore, hafter⟩

theorem length (h : Successive Call start contents results) : contents.length = results.length := by
  induction h with
  | nil => rfl
  | cons _ _ ih => rw [List.length_cons, List.length_cons, ih]

theorem exists_of_mem (h : Successive Call start contents results) {result : Highlighted}
    (hresult : result ∈ results) : ∃ content origin, Call content origin result := by
  induction h with
  | nil => cases hresult
  | cons hcall _ ih =>
      rcases List.mem_cons.1 hresult with rfl | hrest
      · exact ⟨_, _, hcall⟩
      · exact ih hrest

/-- Calls that have one result each have these results one after another and no others. -/
theorem unique {results' : List Highlighted}
    (hcall : ∀ {content start result result'}, Call content start result →
      Call content start result' → result = result')
    (h : Successive Call start contents results) (h' : Successive Call start contents results') :
    results = results' := by
  induction h generalizing results' with
  | nil =>
      cases h'
      rfl
  | cons hfirst _ ih =>
      cases h' with
      | cons hfirst' hrest' =>
          rw [← hcall hfirst hfirst'] at hrest' ⊢
          rw [ih hrest']

end Successive

/-! ### Chains of calls -/

namespace Highlighter

variable (h : Highlighter) (language : Language)

/-- A call on the language gives the result, whether the language is passed or named. -/
def Gives (content : String) (options : Options) (result : Highlighted) : Prop :=
  (h.highlightLanguage language content options).value = .ok result ∨
    ∃ name, h.registry.get? name = some language ∧
      (h.highlightWith name content options).value = .ok result

/-- A call on the language takes up from the continuation, and does not leave its text as it is. -/
def Resumes (content : String) (start : Option Continuation) (result : Highlighted) : Prop :=
  result.language.isSome = true ∧
    ∃ ignoreIllegals, h.Gives language content ⟨ignoreIllegals, start⟩ result

end Highlighter

/-- The tokens of calls one after another, without the ends and begins where they meet. -/
def glued (g : CompiledGrammar) : List Highlighted → List Token
  | [] => []
  | [result] => result.tokens
  | result :: next :: rest =>
    result.tokens.rdrop (closers g result.continuation).length ++
      (glued g (next :: rest)).drop (reopeners g result.continuation).length

section Chains

variable {h : Highlighter} {language : Language} {g : CompiledGrammar}
  {start : Option Continuation} {contents : List String}

theorem Highlighter.Gives.value {content : String} {options : Options} {result : Highlighted}
    (hresult : h.Gives language content options result) :
    (h.highlightLanguage language content options).value = .ok result := by
  rcases hresult with hresult | ⟨name, hname, hresult⟩
  · exact hresult
  · rw [← Highlighter.value_highlightWith hname]
    exact hresult

/-- **One call** that does not leave its text as it is. -/
theorem Highlighter.Resumes.exists_spans {content : String} {result : Highlighted}
    (hresult : h.Resumes language content start result) (hg : language.compile = .ok g) :
    result.GivenBy language.name ∧
      ∃ inner, Spans g start result.continuation inner result.tokens := by
  obtain ⟨hgiven, ignoreIllegals, hresult⟩ := hresult
  obtain ⟨compiled, stack, hcompiled, hstack, hbyGrammar | ⟨-, rfl⟩⟩ :=
    highlightCompiled_eq_ok hresult.value
  · rw [hg] at hcompiled
    cases hcompiled
    exact ⟨givenBy_of_highlightByGrammar hbyGrammar,
      exists_spans_of_highlightByGrammar (openRegions_of_startFor hstack) hbyGrammar⟩
  · cases hgiven

theorem glued_cons {seam last : Option Continuation} {inner later : List Token}
    {result : Highlighted} {rest : List Highlighted} (hrest : rest ≠ [])
    (hseam : result.continuation = seam) (hfirst : Spans g start seam inner result.tokens)
    (hlater : Spans g seam last later (glued g rest)) :
    Spans g start last (inner ++ later) (glued g (result :: rest)) := by
  cases rest with
  | nil => exact absurd rfl hrest
  | cons next others =>
      rw [glued, hseam]
      exact hfirst.glue hlater

/-- **A chain** of calls spans where it starts and where its last call finishes. -/
theorem exists_spans_glued (hg : language.compile = .ok g) {results : List Highlighted}
    (hchain : Successive (h.Resumes language) start contents results) (hne : results ≠ []) :
    ∃ inner, Spans g start (resumedAt start results) inner (glued g results) := by
  induction hchain with
  | nil => exact absurd rfl hne
  | @cons start content result contents rest hcall hrest ih =>
      obtain ⟨-, inner, hinner⟩ := hcall.exists_spans hg
      by_cases hlast : rest = []
      · rw [hlast]
        exact ⟨inner, hinner⟩
      · obtain ⟨later, hlater⟩ := ih hlast
        exact ⟨inner ++ later, glued_cons hlast rfl hinner hlater⟩

/-- Wherever a chain is cut, its parts are glued to the whole. -/
theorem spans_glued_append (hg : language.compile = .ok g) {earlier later : List Highlighted}
    (hchain : Successive (h.Resumes language) start contents earlier)
    {last : Option Continuation} {behind : List Token} (hne : earlier ≠ []) (hlater : later ≠ [])
    (hbehind : Spans g (resumedAt start earlier) last behind (glued g later)) :
    ∃ inner, Spans g start (resumedAt start earlier) inner (glued g earlier) ∧
      Spans g start last (inner ++ behind) (glued g (earlier ++ later)) := by
  induction hchain with
  | nil => exact absurd rfl hne
  | @cons start content result contents rest hcall hrest ih =>
      obtain ⟨-, inner, hinner⟩ := hcall.exists_spans hg
      by_cases hlast : rest = []
      · rw [hlast] at hbehind ⊢
        exact ⟨inner, hinner, glued_cons hlater rfl hinner hbehind⟩
      · obtain ⟨middle, hmiddle, hboth⟩ := ih hlast hbehind
        have happend : rest ++ later ≠ [] := fun hnil => hlast (List.append_eq_nil_iff.1 hnil).1
        refine ⟨inner ++ middle, glued_cons hlast rfl hinner hmiddle, ?_⟩
        rw [List.append_assoc]
        exact glued_cons happend rfl hinner hboth

end Chains

/-- **Continuations glue.** In a chain of calls on one language the tokens of each call start with
the begins of the regions that the call before left open, and end with the ends of those that it
leaves open itself. Without these ends and begins where two calls meet, the tokens of the chain are
one well-nested stream; cut at any call, it has open there just the regions of the labelled frames
of the continuation. -/
theorem continuations_glue (h : Highlighter) {language : Language} {g : CompiledGrammar}
    (hg : language.compile = .ok g) {start : Option Continuation} {contents : List String}
    {results : List Highlighted}
    (hchain : Successive (h.Resumes language) start contents results) :
    (∀ earlier result later, results = earlier ++ result :: later →
      result.GivenBy language.name ∧
        ∃ inner, result.tokens = reopeners g (resumedAt start earlier) ++ inner ++
          closers g result.continuation) ∧
    WellNested (glued g results) ∧
    (∀ earlier later, results = earlier ++ later → earlier ≠ [] → later ≠ [] →
      ∃ front back, glued g earlier = front ++ closers g (resumedAt start earlier) ∧
        glued g later = reopeners g (resumedAt start earlier) ++ back ∧
        glued g results = front ++ back ∧
        scopesAfter? [] front = some (openRegions g (resumedAt start earlier)).reverse) := by
  refine ⟨?_, ?_, ?_⟩
  · rintro earlier result later rfl
    obtain ⟨_, _, -, -, hrest⟩ := hchain.of_append
    cases hrest with
    | cons hcall _ =>
        obtain ⟨hby, inner, hinner⟩ := hcall.exists_spans hg
        exact ⟨hby, inner, hinner.tokens_eq⟩
  · by_cases hne : results = []
    · rw [hne]
      rfl
    · obtain ⟨inner, hinner⟩ := exists_spans_glued hg hchain hne
      exact hinner.wellNested
  · rintro earlier later rfl hearlier hlater
    obtain ⟨_, _, -, hfirst, hsecond⟩ := hchain.of_append
    obtain ⟨behind, hbehind⟩ := exists_spans_glued hg hsecond hlater
    obtain ⟨inner, hinner, hboth⟩ := spans_glued_append hg hfirst hearlier hlater hbehind
    refine ⟨_, behind ++ closers g (resumedAt (resumedAt start earlier) later), hinner.tokens_eq,
      ?_, ?_, hinner.scopesAfter?_front⟩
    · rw [hbehind.tokens_eq, List.append_assoc]
    · rw [hboth.tokens_eq]
      simp only [List.append_assoc]

/-- A number that is still open where the first text ends goes on in the second. -/
theorem continuations_glue_sample :
    ∃ g first second, sampleInner.compile = .ok g ∧
      Successive (sampleHighlighter.Resumes sampleInner) none ["1", "12"] [first, second] ∧
      first.continuation.map Continuation.depth = some 1 ∧
      WellNested (glued g [first, second]) ∧
      (∃ inner, second.tokens = reopeners g first.continuation ++ inner ++
        closers g second.continuation) ∧
      ∃ front back, glued g [first] = front ++ closers g first.continuation ∧
        glued g [first, second] = front ++ back := by
  obtain ⟨g, hg⟩ := exists_of_isOk (show sampleInner.compile.isOk = true by decide +kernel)
  obtain ⟨⟨first, second⟩, hrun, hseen⟩ := exists_of_any (show
    ((sampleHighlighter.highlightLanguage sampleInner "1" {}).value >>= fun first =>
      (sampleHighlighter.highlightLanguage sampleInner "12" ⟨false, first.continuation⟩).value >>=
        fun second => .ok (first, second)).toOption.any (fun pair =>
          pair.1.language.isSome && (pair.2.language.isSome &&
            pair.1.continuation.map Continuation.depth == some 1)) = true by decide +kernel)
  obtain ⟨_, hfirst, hrun⟩ := bind_eq_ok.1 hrun
  obtain ⟨_, hsecond, hrun⟩ := bind_eq_ok.1 hrun
  cases hrun
  obtain ⟨hfirstGiven, hseen⟩ := Bool.and_eq_true_iff.1 hseen
  obtain ⟨hsecondGiven, hdepth⟩ := Bool.and_eq_true_iff.1 hseen
  have hchain :
      Successive (sampleHighlighter.Resumes sampleInner) none ["1", "12"] [first, second] :=
    .cons ⟨hfirstGiven, false, .inl hfirst⟩ (.cons ⟨hsecondGiven, false, .inl hsecond⟩ .nil)
  obtain ⟨hparts, hnested, hcuts⟩ := continuations_glue sampleHighlighter hg hchain
  obtain ⟨-, hinner⟩ := hparts [first] second [] rfl
  obtain ⟨front, back, hfront, -, hglued, -⟩ := hcuts [first] [second] rfl (List.cons_ne_nil _ _)
    (List.cons_ne_nil _ _)
  exact ⟨g, first, second, hg, hchain, beq_iff_eq.1 hdepth, hnested, hinner, front, back, hfront,
    hglued⟩

end LexicalModes
