import LexicalModes.Proofs.Detection
import LexicalModes.Proofs.Finishing
import LexicalModes.Proofs.Threads

/-!
Highlighting under a name does not depend on languages that have nothing to do with it. A registry
is only asked for the names that languages write down for the text they embed, and only languages
found under such names are asked further (`Registry.MayUse`). Where two registries give the same
languages under these names, and no mode is highlighted by the best of all languages there are
(`Registry.AgreesFrom`), every request is answered alike at every depth of embedding, by induction
on the depth, and so is the whole call.
-/

namespace LexicalModes

/-! ### Names that are looked up -/

/-- The names that are written down for a language, or for several to choose from. -/
def SubLanguage.names : SubLanguage → List String
  | .fixed name => [name]
  | .auto names => names

/-- What the modes of the language embed; nothing if its grammar cannot be compiled. -/
def Language.embedded (language : Language) : List SubLanguage :=
  match language.compile with
  | .ok g => g.modes.toList.filterMap (·.subLanguage)
  | .error _ => []

namespace Registry

/-- The languages that text is handed to under the names that are written down. Those that take no
part in detection are looked up, but not handed any. -/
def targets (r : Registry) : SubLanguage → List Language
  | .fixed name => (r.get? name).toList
  | .auto names => (names.filterMap r.get?).filter fun language => !language.disableAutodetect

/-- The first of two languages hands text to the second. -/
def HandsTo (r : Registry) (language target : Language) : Prop :=
  ∃ sub ∈ language.embedded, target ∈ r.targets sub

/-- Text that is highlighted under a name may come to the language, perhaps through others. -/
def MayUse (r : Registry) (start : String) (language : Language) : Prop :=
  ∃ first, r.get? start = some first ∧ Relation.ReflTransGen r.HandsTo first language

/-- The registries give the same languages under a name and under all names that are looked up on
the way, and all languages to choose from are named. -/
structure AgreesFrom (r other : Registry) (start : String) : Prop where
  first : r.get? start = other.get? start
  names : ∀ language, r.MayUse start language → ∀ sub ∈ language.embedded, ∀ name ∈ sub.names,
    r.get? name = other.get? name
  named : ∀ language, r.MayUse start language → .auto [] ∉ language.embedded

variable {r other : Registry} {start : String}

theorem MayUse.target {language target : Language} (h : r.MayUse start language)
    {sub : SubLanguage} (hsub : sub ∈ language.embedded) (htarget : target ∈ r.targets sub) :
    r.MayUse start target := by
  obtain ⟨first, hfirst, hreaches⟩ := h
  exact ⟨first, hfirst, hreaches.tail ⟨sub, hsub, htarget⟩⟩

/-- Text never leaves languages that only hand it to each other. -/
theorem MayUse.mem_of_closed {known : List Language} {language : Language}
    (h : r.MayUse start language) (hstart : ∀ first, r.get? start = some first → first ∈ known)
    (hclosed : ∀ used ∈ known, ∀ sub ∈ used.embedded, ∀ target ∈ r.targets sub, target ∈ known) :
    language ∈ known := by
  obtain ⟨first, hfirst, hreaches⟩ := h
  induction hreaches with
  | refl => exact hstart first hfirst
  | tail _ hhands ih =>
      obtain ⟨sub, hsub, htarget⟩ := hhands
      exact hclosed _ ih sub hsub _ htarget

end Registry

/-! ### One level of embedding -/

/-- Two embeddings come to the same with every text in the language, or in one of several. -/
def Embedding.AlikeFor (embedding other : Embedding) : SubLanguage → Prop
  | .fixed name => ∀ content continuation,
    (embedding.fixed name content continuation).value =
      (other.fixed name content continuation).value
  | .auto names => ∀ content,
    (embedding.auto names content).value = (other.auto names content).value

/-- Two embeddings allow scans the same steps, and come to the same with all text that modes of the
grammar embed. -/
structure Embedding.AlikeIn (embedding other : Embedding) (g : CompiledGrammar) : Prop where
  steps : embedding.stepLimit = other.stepLimit
  modes : ∀ mode ∈ g.modes, ∀ sub, mode.subLanguage = some sub → embedding.AlikeFor other sub

theorem Traced.value_bind_congr {α β : Type} {x y : Traced α} {f f' : α → Traced β}
    (h : x.value = y.value) (hf : ∀ a, (f a).value = (f' a).value) :
    (x >>= f).value = (y >>= f').value := by
  rw [value_bind, value_bind, h]
  exact bind_congr hf

theorem Traced.value_orVerbatim_congr {x y : Traced Highlighted} (h : x.value = y.value)
    (content : String) : (x.orVerbatim content).value = (y.orVerbatim content).value := by
  rw [orVerbatim, orVerbatim, h]
  split
  · rfl
  · exact h

/-- Highlight a text by a language, with requests answered in the given way. -/
def Language.highlightIn (language : Language) (embedding : Embedding) (content : String)
    (options : Options) : Except HighlightError Highlighted :=
  (highlightCompiled embedding language.name language.compile [] content options).value

namespace Embedding.AlikeIn

variable {embedding other : Embedding} {g : CompiledGrammar}

/-- **One event.** Requests are only made by modes of the grammar. -/
theorem add (h : embedding.AlikeIn other g) (e : Emission) (event : Event) :
    (e.add g embedding event).value = (e.add g other event).value := by
  cases event with
  | begins className => rfl
  | ends className => rfl
  | score weight => rfl
  | chunk index content =>
      rw [Emission.add, Emission.add, Emission.addChunk, Emission.addChunk]
      split
      case h_1 hsub => rfl
      case h_2 name hsub =>
        have halike := h.modes _ (CompiledGrammar.mem_modes_of_subLanguage hsub) _ hsub
        exact Traced.value_bind_congr (halike content _) fun _ => rfl
      case h_3 names hsub =>
        have halike := h.modes _ (CompiledGrammar.mem_modes_of_subLanguage hsub) _ hsub
        exact Traced.value_bind_congr (halike content) fun _ => rfl

/-- **A run of events.** -/
theorem addAll (h : embedding.AlikeIn other g) (e : Emission) (events : List Event) :
    (Emission.addAll g embedding e events).value = (Emission.addAll g other e events).value := by
  induction events generalizing e with
  | nil => rfl
  | cons event rest ih => exact Traced.value_bind_congr (h.add e event) ih

theorem highlightByGrammar (h : embedding.AlikeIn other g) (name : String) (ignoreIllegals : Bool)
    (stack : Stack) (content : String) :
    (highlightByGrammar g embedding name ignoreIllegals stack content).value =
      (highlightByGrammar g other name ignoreIllegals stack content).value := by
  rw [LexicalModes.highlightByGrammar, LexicalModes.highlightByGrammar, ← h.steps]
  exact Traced.value_bind_congr (h.addAll _ _) fun _ => rfl

end Embedding.AlikeIn

theorem Language.highlightIn_congr {embedding other : Embedding} {language : Language}
    (hsteps : embedding.stepLimit = other.stepLimit)
    (h : ∀ sub ∈ language.embedded, embedding.AlikeFor other sub) (content : String)
    (options : Options) :
    language.highlightIn embedding content options =
      language.highlightIn other content options := by
  rw [highlightIn, highlightIn]
  cases hcompile : language.compile with
  | error cause => rfl
  | ok g =>
      have halike : embedding.AlikeIn other g := by
        refine ⟨hsteps, fun mode hmode sub hsub => h sub ?_⟩
        rw [embedded, hcompile]
        exact List.mem_filterMap.2 ⟨mode, Array.mem_toList_iff.2 hmode, hsub⟩
      refine Traced.value_bind_congr rfl fun _ => Traced.value_bind_congr rfl fun stack => ?_
      exact Traced.value_orVerbatim_congr
        (halike.highlightByGrammar language.name _ stack content) content

namespace Highlighter

variable {h other : Highlighter} {start : String}

theorem value_highlightEntry_eq_highlightIn (embedding : Embedding) (entry : String × Entry)
    (content : String) (options : Options) :
    (highlightEntry embedding entry content options).value =
      entry.2.language.highlightIn embedding content options := by
  rw [highlightEntry, entry.2.grammar_eq, value_highlightCompiled]
  rfl

/-- Ranking asks nothing of an entry but its language. -/
theorem value_rank_congr {embedding embedding' : Embedding} {content : String}
    {entries entries' : List (String × Entry)}
    (hlanguages : entries.map (·.2.language) = entries'.map (·.2.language))
    (halike : ∀ entry ∈ entries, entry.2.language.highlightIn embedding content {} =
      entry.2.language.highlightIn embedding' content {}) (ranking : Ranking) :
    (rank embedding content entries ranking).value =
      (rank embedding' content entries' ranking).value := by
  induction entries generalizing entries' ranking with
  | nil =>
      rw [List.map_nil, eq_comm, List.map_eq_nil_iff] at hlanguages
      rw [hlanguages]
      rfl
  | cons entry rest ih =>
      obtain ⟨entry', rest', rfl, hentry, hrest⟩ := List.map_eq_cons_iff.1 hlanguages.symm
      rw [rank, rank]
      refine Traced.value_bind_congr ?_ fun result => ?_
      · rw [value_highlightEntry_eq_highlightIn, value_highlightEntry_eq_highlightIn, hentry]
        exact halike entry List.mem_cons_self
      · exact ih hrest.symm (fun later hlater => halike later (List.mem_cons_of_mem _ hlater)) _

theorem value_highlightWith_of_none {name : String} (hname : h.registry.get? name = none)
    (content : String) (options : Options) :
    (h.highlightWith name content options).value = .error (.unknownLanguage name) := by
  rw [Registry.get?, Option.map_eq_none_iff] at hname
  rw [highlightWith, hname]
  rfl

/-- Text in a fixed language is highlighted by the language that the name leads to. -/
theorem value_fixed_succ (h : Highlighter) (depth : Nat) (name content : String)
    (continuation : Option Continuation) :
    ((h.embedding (depth + 1)).fixed name content continuation).value =
      match h.registry.get? name with
      | none => .ok none
      | some language => do
        return some (← language.highlightIn (h.embedding depth) content
          { ignoreIllegals := true, continuation := continuation }) := by
  simp only [embedding, Registry.get?]
  cases h.registry.find? name with
  | none => rfl
  | some entry =>
      rw [Option.map_some]
      dsimp only
      rw [← value_highlightEntry_eq_highlightIn]
      exact Traced.value_bind _ _

/-- The languages to choose from are those that the names lead to. -/
theorem candidateLanguages_eq_targets (h : Highlighter) {names : List String} (hne : names ≠ []) :
    h.candidateLanguages names = h.registry.targets (.auto names) := by
  rw [candidateLanguages, if_neg hne]
  rfl

/-- **Every level.** Where registries agree, text that the languages on the way embed is highlighted
alike, by induction on how deep languages may be embedded in each other. -/
theorem alikeFor_embedding (hsteps : h.stepLimit = other.stepLimit)
    (hagree : h.registry.AgreesFrom other.registry start) (depth : Nat)
    {language : Language} (hused : h.registry.MayUse start language) {sub : SubLanguage}
    (hsub : sub ∈ language.embedded) :
    (h.embedding depth).AlikeFor (other.embedding depth) sub := by
  induction depth generalizing language sub with
  | zero =>
      cases sub with
      | fixed name => exact fun _ _ => rfl
      | auto names => exact fun _ => rfl
  | succ depth ih =>
      have hnames := hagree.names language hused sub hsub
      -- What text is handed to is on the way too.
      have htarget : ∀ target ∈ h.registry.targets sub, ∀ content options,
          target.highlightIn (h.embedding depth) content options =
            target.highlightIn (other.embedding depth) content options := by
        intro target hmem content options
        refine Language.highlightIn_congr (by simpa using hsteps) (fun inner hinner => ?_) content
          options
        exact ih (hused.target hsub hmem) hinner
      cases sub with
      | fixed name =>
          intro content continuation
          rw [value_fixed_succ, value_fixed_succ, ← hnames name List.mem_cons_self]
          cases hname : h.registry.get? name with
          | none => rfl
          | some target =>
              have hmem : target ∈ h.registry.targets (.fixed name) := by
                rw [Registry.targets, hname]
                exact List.mem_cons_self
              dsimp only
              rw [htarget target hmem]
      | auto names =>
          intro content
          have hne : names ≠ [] := by
            rintro rfl
            exact hagree.named language hused hsub
          have hsame : h.registry.targets (.auto names) = other.registry.targets (.auto names) := by
            rw [Registry.targets, Registry.targets]
            exact congrArg _ (List.filterMap_congr hnames)
          refine Traced.value_bind_congr (value_rank_congr ?_ (fun entry hentry => ?_) _)
            fun _ => rfl
          · rw [map_entriesAmong, map_entriesAmong, candidateLanguages_eq_targets h hne,
              candidateLanguages_eq_targets other hne, hsame]
          · refine htarget _ ?_ content {}
            rw [← candidateLanguages_eq_targets h hne, ← map_entriesAmong]
            exact List.mem_map_of_mem hentry

end Highlighter

/-- With the same limits, registries that agree from a name on lead to the same outcome. -/
theorem value_highlightWith_congr {h other : Highlighter} (hsteps : h.stepLimit = other.stepLimit)
    (hdepth : h.embeddingLimit = other.embeddingLimit) {name : String}
    (hagree : h.registry.AgreesFrom other.registry name) (content : String) (options : Options) :
    (h.highlightWith name content options).value =
      (other.highlightWith name content options).value := by
  cases hname : h.registry.get? name with
  | none =>
      rw [Highlighter.value_highlightWith_of_none hname,
        Highlighter.value_highlightWith_of_none (hagree.first.symm.trans hname)]
  | some language =>
      have hused : h.registry.MayUse name language := ⟨language, hname, .refl⟩
      rw [Highlighter.value_highlightWith hname,
        Highlighter.value_highlightWith (hagree.first.symm.trans hname),
        Highlighter.highlightLanguage, Highlighter.highlightLanguage, ← hdepth]
      refine Language.highlightIn_congr (by simpa using hsteps) (fun sub hsub => ?_) content options
      exact Highlighter.alikeFor_embedding hsteps hagree _ hused hsub

namespace Highlighter

/-- The highlighter with the larger of its own limits and those of another one. -/
def withLimitsOf (h other : Highlighter) : Highlighter :=
  { h with
    embeddingLimit := max h.embeddingLimit other.embeddingLimit
    stepLimit := fun g text stack => max (h.stepLimit g text stack) (other.stepLimit g text stack) }

theorem relaxedBy_withLimitsOf (h other : Highlighter) : h.RelaxedBy (h.withLimitsOf other) :=
  ⟨rfl, rfl, fun _ _ _ => Nat.le_max_left _ _, Nat.le_max_left _ _⟩

end Highlighter

/-- **Unrelated languages do not interfere.** Highlighting under a name comes to the same result, or
the same error, in two registries that agree from the name on, for every text and all options,
whatever else each of them holds and whatever candidates are set for detection. Limits make no
difference if they are the same, and none unless a call is stopped by one. -/
theorem unrelated_languages_do_not_interfere {h other : Highlighter} {name : String}
    (hagree : h.registry.AgreesFrom other.registry name) (content : String) (options : Options) :
    (h.stepLimit = other.stepLimit → h.embeddingLimit = other.embeddingLimit →
      (h.highlightWith name content options).value =
        (other.highlightWith name content options).value) ∧
    ((∃ limit, (h.highlightWith name content options).value = .error (.stopped limit)) ∨
      (∃ limit, (other.highlightWith name content options).value = .error (.stopped limit)) ∨
      (h.highlightWith name content options).value =
        (other.highlightWith name content options).value) := by
  refine ⟨fun hsteps hdepth => value_highlightWith_congr hsteps hdepth hagree content options, ?_⟩
  -- Both calls are compared with those that are allowed as much as the two together.
  have hsame : ((h.withLimitsOf other).highlightWith name content options).value =
      ((other.withLimitsOf h).highlightWith name content options).value := by
    have hagree : (h.withLimitsOf other).registry.AgreesFrom (other.withLimitsOf h).registry name :=
      hagree
    refine value_highlightWith_congr ?_ (Nat.max_comm _ _) hagree content options
    funext g text stack
    exact Nat.max_comm _ _
  rcases (h.relaxedBy_withLimitsOf other).calls.1 name content options with hstopped | hfirst
  · exact .inl hstopped
  · rcases (other.relaxedBy_withLimitsOf h).calls.1 name content options with hstopped | hsecond
    · exact .inr (.inl hstopped)
    · exact .inr (.inr (hfirst.symm.trans (hsame.trans hsecond)))

/-- A registry of the threaded language and the one it embeds, and nothing else. -/
def sampleAlone : Highlighter where
  registry := (Registry.empty.register sampleThreaded).register sampleInner

/-- A registry with another language, which has the name of the embedded one as an alias, and which
is tried when no candidates are named. -/
def sampleCrowded : Highlighter where
  registry :=
    ((Registry.empty.register sampleInner).register
      { sampleHost with aliases := ["inner", "number"] }).register sampleThreaded
  candidates := some ["host"]

theorem embedded_sampleThreaded :
    sampleThreaded.embedded = [.fixed "inner", .auto ["inner"]] := by
  decide +kernel

theorem embedded_sampleInner : sampleInner.embedded = [] := by
  decide +kernel

/-- Both registries have what the threaded language needs. -/
theorem get?_sampleAlone :
    (sampleAlone.registry.get? "threaded" = some sampleThreaded ∧
      sampleAlone.registry.get? "inner" = some sampleInner) ∧
    sampleCrowded.registry.get? "threaded" = some sampleThreaded ∧
      sampleCrowded.registry.get? "inner" = some sampleInner :=
  ⟨⟨rfl, rfl⟩, rfl, rfl⟩

/-- Text of the threaded language only comes to the inner one, which embeds nothing. -/
theorem mem_of_mayUse_sampleAlone {language : Language}
    (h : sampleAlone.registry.MayUse "threaded" language) :
    language = sampleThreaded ∨ language = sampleInner := by
  obtain ⟨⟨hstart, hinner⟩, -⟩ := get?_sampleAlone
  have htargets : ∀ sub ∈ sampleThreaded.embedded,
      sampleAlone.registry.targets sub = [sampleInner] := by
    rw [embedded_sampleThreaded]
    simp [Registry.targets, hinner, sampleInner]
  refine List.mem_pair.1 (h.mem_of_closed (fun first hfirst => ?_) ?_)
  · rw [hstart] at hfirst
    cases hfirst
    exact List.mem_cons_self
  · intro used hused sub hsub target htarget
    rcases List.mem_pair.1 hused with rfl | rfl
    · rw [htargets sub hsub] at htarget
      exact List.mem_cons_of_mem _ htarget
    · rw [embedded_sampleInner] at hsub
      cases hsub

/-- The registries agree from the threaded language on, though only one of them knows numbers, and
the results are the same. -/
theorem unrelated_languages_do_not_interfere_sample :
    sampleAlone.registry.AgreesFrom sampleCrowded.registry "threaded" ∧
      (sampleAlone.registry.get? "number").isSome = false ∧
      (sampleCrowded.registry.get? "number").isSome = true ∧
      ∃ result, (sampleAlone.highlightWith "threaded" "<1>--12-<2>" {}).value = .ok result ∧
        (sampleCrowded.highlightWith "threaded" "<1>--12-<2>" {}).value = .ok result := by
  obtain ⟨⟨hstart, hinner⟩, hstart', hinner'⟩ := get?_sampleAlone
  have hagree : sampleAlone.registry.AgreesFrom sampleCrowded.registry "threaded" := by
    refine ⟨hstart.trans hstart'.symm, fun language hused => ?_, fun language hused => ?_⟩
    · rcases mem_of_mayUse_sampleAlone hused with rfl | rfl
      · rw [embedded_sampleThreaded]
        simp [SubLanguage.names, hinner, hinner']
      · rw [embedded_sampleInner]
        exact List.forall_mem_nil _
    · rcases mem_of_mayUse_sampleAlone hused with rfl | rfl
      · rw [embedded_sampleThreaded]
        decide
      · rw [embedded_sampleInner]
        exact List.not_mem_nil
  obtain ⟨result, hresult⟩ := exists_of_isOk (show
    (sampleAlone.highlightWith "threaded" "<1>--12-<2>" {}).value.isOk = true by decide +kernel)
  refine ⟨hagree, by decide +kernel, by decide +kernel, result, hresult, ?_⟩
  exact ((unrelated_languages_do_not_interfere hagree _ _).1 rfl rfl).symm.trans hresult

/-- A language with text in the best of all languages there are. -/
def sampleCurious : Language where
  name := "curious"
  grammar := ⟨#[{ contains := [.mode 1], lexemes := some "z" },
    { beginPattern := some "<", endPattern := some ">", lexemes := some "z"
      subLanguage := some (.auto []), flags := { excludeBegin := true, excludeEnd := true } }],
    by decide⟩

-- Where no names are written down, every language that is registered has a part in the result.
example :
    let alone : Highlighter := { registry := Registry.empty.register sampleCurious }
    let crowded : Highlighter := { registry := alone.registry.register sampleInner }
    (alone.highlightWith "curious" "<12>" {}).value.toOption.map (·.relevance) = some 0 ∧
      (crowded.highlightWith "curious" "<12>" {}).value.toOption.map (·.relevance) = some 1 := by
  decide +kernel

end LexicalModes
