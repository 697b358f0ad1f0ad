import LexicalModes.Proofs.Containment

/-!
Detection keeps the best result and the best of the others. Of results that score the same the one
tried first comes first, so what is kept is determined by the list of all results (`Picks`): the
first result that scores most, and the first that scores most when that one is taken out. One more
result changes what is picked in one of three ways, and the ranking changes in the same way
(`Ranking.Reflects.add`).
-/

namespace LexicalModes

/-- The first of the results that score most, and the others in their order. -/
def Picks (best : Highlighted) (others results : List Highlighted) : Prop :=
  ∃ before after, results = before ++ best :: after ∧ others = before ++ after ∧
    (∀ r ∈ before, r.relevance < best.relevance) ∧ ∀ r ∈ after, r.relevance ≤ best.relevance

section Picks

variable {best result : Highlighted} {others results : List Highlighted}

theorem Picks.le (h : Picks best others results) : ∀ r ∈ results, r.relevance ≤ best.relevance := by
  obtain ⟨before, after, rfl, -, hbefore, hafter⟩ := h
  intro r hr
  rcases List.mem_append.1 hr with hr | hr
  · exact Nat.le_of_lt (hbefore r hr)
  · rcases List.mem_cons.1 hr with rfl | hr
    · exact Nat.le_refl _
    · exact hafter r hr

theorem Picks.mem (h : Picks best others results) : best ∈ results := by
  obtain ⟨before, after, rfl, -, -, -⟩ := h
  exact List.mem_append_right before List.mem_cons_self

theorem Picks.others_subset (h : Picks best others results) : others ⊆ results := by
  obtain ⟨before, after, rfl, rfl, -, -⟩ := h
  intro r hr
  rcases List.mem_append.1 hr with hr | hr
  · exact List.mem_append_left _ hr
  · exact List.mem_append_right before (List.mem_cons_of_mem best hr)

/-- A result that does not score more is one of the others. -/
theorem Picks.snoc (h : Picks best others results) (hle : result.relevance ≤ best.relevance) :
    Picks best (others ++ [result]) (results ++ [result]) := by
  obtain ⟨before, after, rfl, rfl, hbefore, hafter⟩ := h
  refine ⟨before, after ++ [result], by simp, by simp, hbefore, ?_⟩
  intro r hr
  rcases List.mem_append.1 hr with hr | hr
  · exact hafter r hr
  · rw [List.mem_singleton.1 hr]
    exact hle

/-- A result that scores more than all before it is the best, and those are the others. -/
theorem picks_last (hlt : ∀ r ∈ results, r.relevance < result.relevance) :
    Picks result results (results ++ [result]) :=
  ⟨results, [], rfl, (List.append_nil results).symm, hlt, List.forall_mem_nil _⟩

/-- The best result and the best of the others are determined by the results. -/
theorem Picks.unique {best' : Highlighted} {others' : List Highlighted}
    (h : Picks best others results) (h' : Picks best' others' results) :
    best' = best ∧ others' = others := by
  obtain ⟨before, after, rfl, rfl, hbefore, hafter⟩ := h
  obtain ⟨before', after', heq, rfl, hbefore', hafter'⟩ := h'
  -- Whichever of the two came first would score both less and not less than the other.
  have hcases := List.append_eq_append_iff.1 heq
  rcases hcases with ⟨between, hbetween, hrest⟩ | ⟨between, hbetween, hrest⟩
  · cases between with
    | nil =>
        rw [List.append_nil] at hbetween
        cases hrest
        exact ⟨rfl, by rw [hbetween]⟩
    | cons first between =>
        cases hrest
        have hlt := hbefore' best (by rw [hbetween]; simp)
        have hle := hafter best' (by simp)
        exact absurd hlt (Nat.not_lt.2 hle)
  · cases between with
    | nil =>
        rw [List.append_nil] at hbetween
        cases hrest
        exact ⟨rfl, by rw [hbetween]⟩
    | cons first between =>
        cases hrest
        have hlt := hbefore best' (by rw [hbetween]; simp)
        have hle := hafter' best (by simp)
        exact absurd hlt (Nat.not_lt.2 hle)

end Picks

/-! ### Rankings -/

/-- The ranking says of the results tried so far which is the best and which the best of the
others, as far as they score at all. -/
inductive Ranking.Reflects (content : String) (results : List Highlighted) : Ranking → Prop
  | unscored (hzero : ∀ r ∈ results, r.relevance = 0) : Reflects content results (.start content)
  | one {best : Highlighted} {others : List Highlighted} (hbest : Picks best others results)
      (hpos : 0 < best.relevance) (hzero : ∀ r ∈ others, r.relevance = 0) :
      Reflects content results ⟨best, .verbatim content⟩
  | two {best second : Highlighted} {others rest : List Highlighted}
      (hbest : Picks best others results) (hpos : 0 < best.relevance)
      (hsecond : Picks second rest others) (hsecondPos : 0 < second.relevance) :
      Reflects content results ⟨best, second⟩

namespace Ranking

variable {content : String} {results : List Highlighted} {ranking : Ranking}

private theorem forall_snoc_zero {result : Highlighted} (h : ∀ r ∈ results, r.relevance = 0)
    (hresult : result.relevance = 0) : ∀ r ∈ results ++ [result], r.relevance = 0 := by
  intro r hr
  rcases List.mem_append.1 hr with hr | hr
  · exact h r hr
  · rw [List.mem_singleton.1 hr]
    exact hresult

/-- **One more result** is ranked as it is picked. -/
theorem Reflects.add (h : ranking.Reflects content results) (result : Highlighted) :
    (ranking.add result).Reflects content (results ++ [result]) := by
  rw [Ranking.add]
  cases h with
  | unscored hzero =>
      by_cases hbest : result.relevance > (Ranking.start content).best.relevance
      · rw [if_pos hbest]
        have hpos : 0 < result.relevance := hbest
        have hlt : ∀ r ∈ results, r.relevance < result.relevance := by
          intro r hr
          rw [hzero r hr]
          exact hpos
        exact .one (picks_last hlt) hpos hzero
      · -- The second best is the text left as it is, too.
        have hsecond : ¬result.relevance > (Ranking.start content).second.relevance := hbest
        rw [if_neg hbest, if_neg hsecond]
        have hresult : result.relevance = 0 := Nat.le_zero.1 (Nat.le_of_not_lt hbest)
        exact .unscored (forall_snoc_zero hzero hresult)
  | @one best others hpicks hpos hzero =>
      by_cases hbest : result.relevance > best.relevance
      · rw [if_pos hbest]
        have hlt : ∀ r ∈ results, r.relevance < result.relevance := fun r hr =>
          Nat.lt_of_le_of_lt (hpicks.le r hr) hbest
        exact .two (picks_last hlt) (Nat.lt_trans hpos hbest) hpicks hpos
      · rw [if_neg hbest]
        have hpicks' := hpicks.snoc (Nat.le_of_not_lt hbest)
        by_cases hsecond : result.relevance > (Highlighted.verbatim content).relevance
        · rw [if_pos hsecond]
          have hscores : 0 < result.relevance := hsecond
          have hlt : ∀ r ∈ others, r.relevance < result.relevance := by
            intro r hr
            rw [hzero r hr]
            exact hscores
          exact .two hpicks' hpos (picks_last hlt) hscores
        · rw [if_neg hsecond]
          have hresult : result.relevance = 0 := Nat.le_zero.1 (Nat.le_of_not_lt hsecond)
          exact .one hpicks' hpos (forall_snoc_zero hzero hresult)
  | @two best second others rest hpicks hpos hpicksSecond hsecondPos =>
      by_cases hbest : result.relevance > best.relevance
      · rw [if_pos hbest]
        have hlt : ∀ r ∈ results, r.relevance < result.relevance := fun r hr =>
          Nat.lt_of_le_of_lt (hpicks.le r hr) hbest
        exact .two (picks_last hlt) (Nat.lt_trans hpos hbest) hpicks hpos
      · rw [if_neg hbest]
        have hpicks' := hpicks.snoc (Nat.le_of_not_lt hbest)
        by_cases hsecond : result.relevance > second.relevance
        · rw [if_pos hsecond]
          have hlt : ∀ r ∈ others, r.relevance < result.relevance := fun r hr =>
            Nat.lt_of_le_of_lt (hpicksSecond.le r hr) hsecond
          exact .two hpicks' hpos (picks_last hlt) (Nat.lt_trans hsecondPos hsecond)
        · rw [if_neg hsecond]
          exact .two hpicks' hpos (hpicksSecond.snoc (Nat.le_of_not_lt hsecond)) hsecondPos

/-- **All results**, ranked one after another. -/
theorem Reflects.foldl {earlier later : List Highlighted} (h : ranking.Reflects content earlier) :
    (later.foldl Ranking.add ranking).Reflects content (earlier ++ later) := by
  induction later generalizing earlier ranking with
  | nil =>
      rw [List.append_nil]
      exact h
  | cons result rest ih =>
      rw [List.foldl_cons, List.append_cons]
      exact ih (h.add result)

/-- What a ranking of all results comes down to, if only results of a language score. -/
theorem Reflects.toDetection (h : ranking.Reflects content results)
    (hgiven : ∀ r ∈ results, 0 < r.relevance → r.language.isSome = true) :
    (∀ r ∈ results, r.relevance = 0) ∧ ranking.toDetection = ⟨.verbatim content, none⟩ ∨
      ∃ others, Picks ranking.toDetection.best others results ∧
        0 < ranking.toDetection.best.relevance ∧
        ((∀ r ∈ others, r.relevance = 0) ∧ ranking.toDetection.second = none ∨
          ∃ second rest, Picks second rest others ∧ 0 < second.relevance ∧
            ranking.toDetection.second = some second) := by
  cases h with
  | unscored hzero => exact .inl ⟨hzero, rfl⟩
  | @one best others hpicks hpos hzero =>
      exact .inr ⟨others, hpicks, hpos, .inl ⟨hzero, rfl⟩⟩
  | @two best second others rest hpicks hpos hpicksSecond hsecondPos =>
      have hsecond : second ∈ results := hpicks.others_subset hpicksSecond.mem
      have hlanguage := hgiven second hsecond hsecondPos
      refine .inr ⟨others, hpicks, hpos, .inr ⟨second, rest, hpicksSecond, hsecondPos, ?_⟩⟩
      rw [Ranking.toDetection]
      exact if_pos hlanguage

end Ranking

namespace Highlighter

variable {embedding : Embedding} {content : String}

private theorem exists_of_mem_results {α β : Type} {R : α → β → Prop} {as : List α} {bs : List β}
    (h : List.Forall₂ R as bs) {b : β} (hb : b ∈ bs) : ∃ a, R a b := by
  induction h with
  | nil => cases hb
  | cons hab _ ih =>
      rcases List.mem_cons.1 hb with rfl | hb
      · exact ⟨_, hab⟩
      · exact ih hb

theorem value_rank_of_results {entries : List (String × Entry)} {results : List Highlighted}
    (h : List.Forall₂ (fun entry result =>
      (highlightEntry embedding entry content {}).value = .ok result) entries results)
    (ranking : Ranking) :
    (rank embedding content entries ranking).value = .ok (results.foldl Ranking.add ranking) := by
  induction h generalizing ranking with
  | nil => rfl
  | cons hresult _ ih =>
      rw [rank]
      exact Traced.bind_value_eq_ok.2 ⟨_, hresult, ih _⟩

/-- The first language that fails ends the detection. -/
theorem value_rank_of_failure {earlier later : List (String × Entry)} {entry : String × Entry}
    {e : HighlightError}
    (hearlier : ∀ other ∈ earlier, ∃ result,
      (highlightEntry embedding other content {}).value = .ok result)
    (hentry : (highlightEntry embedding entry content {}).value = .error e) (ranking : Ranking) :
    (rank embedding content (earlier ++ entry :: later) ranking).value = .error e := by
  induction earlier generalizing ranking with
  | nil =>
      rw [List.nil_append, rank, Traced.value_bind]
      exact bind_eq_error.2 (.inl hentry)
  | cons other rest ih =>
      obtain ⟨result, hresult⟩ := hearlier other List.mem_cons_self
      rw [List.cons_append, rank, Traced.value_bind]
      refine bind_eq_error.2 (.inr ⟨result, hresult, ?_⟩)
      exact ih (fun another hmem => hearlier another (List.mem_cons_of_mem other hmem)) _

/-- The languages to try: those that the names lead to, else those of the highlighter, else all that
are registered in the order of their names. Names that lead nowhere are passed over, and so are
languages that do not take part in detection. -/
def candidateLanguages (h : Highlighter) (names : List String) : List Language :=
  let known :=
    if names = [] then
      match h.candidates with
      | some candidates => candidates.filterMap h.registry.get?
      | none => h.registry.languages.values.map (·.language)
    else names.filterMap h.registry.get?
  known.filter fun language => !language.disableAutodetect

theorem map_entriesAmong (h : Highlighter) (names : List String) :
    (h.entriesAmong names).map (·.2.language) = h.candidateLanguages names := by
  have hfound : ∀ known : List String,
      (known.filterMap h.registry.find?).map (·.2.language) = known.filterMap h.registry.get? := by
    intro known
    rw [List.map_filterMap]
    rfl
  have hfilter : ∀ entries : List (String × Entry),
      (entries.filter (!·.2.language.disableAutodetect)).map (·.2.language) =
        (entries.map (·.2.language)).filter fun language => !language.disableAutodetect := by
    intro entries
    rw [List.filter_map]
    rfl
  rw [entriesAmong, candidateLanguages, hfilter]
  congr 1
  cases names with
  | nil =>
      rw [if_pos rfl]
      cases h.candidates with
      | none => simp [OrderedMap.values]
      | some candidates => exact hfound candidates
  | cons name rest =>
      rw [if_neg (List.cons_ne_nil _ _)]
      exact hfound (name :: rest)

end Highlighter

/-- **Detection picks the best result and the best of the others.** The languages are tried one
after another, each from the start and with what is illegal respected; the first that fails ends the
detection with its error. Otherwise the detection is the text left as it is if no result scores;
else it is the first result that scores most and, if another scores, the first that scores most
among the others. -/
theorem detection_picks_best (h : Highlighter) (content : String) (names : List String) :
    (∀ earlier language later e,
      h.candidateLanguages names = earlier ++ language :: later →
      (∀ other ∈ earlier, ∃ result, (h.highlightLanguage other content {}).value = .ok result) →
      (h.highlightLanguage language content {}).value = .error e →
      (h.highlightAmong content names).value = .error e) ∧
    (∀ results, List.Forall₂ (fun language result =>
        (h.highlightLanguage language content {}).value = .ok result)
        (h.candidateLanguages names) results →
      ∃ detection, (h.highlightAmong content names).value = .ok detection ∧
        ((∀ r ∈ results, r.relevance = 0) ∧ detection = ⟨.verbatim content, none⟩ ∨
          ∃ others, Picks detection.best others results ∧ 0 < detection.best.relevance ∧
            ((∀ r ∈ others, r.relevance = 0) ∧ detection.second = none ∨
              ∃ second rest, Picks second rest others ∧ 0 < second.relevance ∧
                detection.second = some second))) := by
  rw [← h.map_entriesAmong names]
  constructor
  · intro earlier language later e hsplit hearlier hfails
    obtain ⟨before, rest, hentries, hbefore, hrest⟩ := List.map_eq_append_iff.1 hsplit
    obtain ⟨entry, after, rfl, rfl, -⟩ := List.map_eq_cons_iff.1 hrest
    have hbeforeOk : ∀ other ∈ before, ∃ result, (Highlighter.highlightEntry
        (h.embedding h.embeddingLimit) other content {}).value = .ok result := by
      intro other hother
      rw [h.value_highlightEntry]
      exact hearlier _ (hbefore ▸ List.mem_map_of_mem hother)
    have hentry : (Highlighter.highlightEntry (h.embedding h.embeddingLimit) entry content
        {}).value = .error e := by
      rw [h.value_highlightEntry]
      exact hfails
    rw [Highlighter.highlightAmong, hentries, Traced.value_bind]
    exact bind_eq_error.2 (.inl (Highlighter.value_rank_of_failure hbeforeOk hentry _))
  · intro results hresults
    have hentries : List.Forall₂ (fun entry result => (Highlighter.highlightEntry
        (h.embedding h.embeddingLimit) entry content {}).value = .ok result)
        (h.entriesAmong names) results := by
      rw [List.forall₂_map_left_iff] at hresults
      refine hresults.imp fun entry result hresult => ?_
      rw [h.value_highlightEntry]
      exact hresult
    have hranked := Highlighter.value_rank_of_results hentries (.start content)
    have hreflects : (results.foldl Ranking.add (.start content)).Reflects content results := by
      have hnone : (Ranking.start content).Reflects content [] := .unscored (List.forall_mem_nil _)
      exact hnone.foldl
    have hgiven : ∀ r ∈ results, 0 < r.relevance → r.language.isSome = true := by
      intro r hr hpos
      obtain ⟨entry, hresult⟩ := Highlighter.exists_of_mem_results hentries hr
      rcases givenBy_or_verbatim hresult with hby | rfl
      · rw [hby.language]
        rfl
      · exact absurd hpos (Nat.lt_irrefl 0)
    exact ⟨_, Traced.bind_value_eq_ok.2 ⟨_, hranked, rfl⟩, hreflects.toDetection hgiven⟩

/-- The inner language scores two where the host, tried before and after it, scores one; and a
language that cannot be compiled fails the detection. -/
theorem detection_picks_best_sample :
    (∃ results detection, results.map (·.relevance) = [1, 2, 1] ∧
      (sampleHighlighter.highlightAmong "<12>12" ["host", "inner", "HOST"]).value = .ok detection ∧
      ∃ others second rest, Picks detection.best others results ∧ Picks second rest others ∧
        detection.second = some second) ∧
    (∃ e, (sampleBroken.highlightAmong "1" ["host", "inner", "host"]).value = .error e) := by
  constructor
  · obtain ⟨results, hmap, hscores⟩ := exists_of_any (show
      ((sampleHighlighter.candidateLanguages ["host", "inner", "HOST"]).mapM fun language =>
        (sampleHighlighter.highlightLanguage language "<12>12" {}).value).toOption.any
          (fun results => results.map (·.relevance) == [1, 2, 1]) = true by decide +kernel)
    have hscores : results.map (·.relevance) = [1, 2, 1] := beq_iff_eq.1 hscores
    obtain ⟨detection, hdetection, hpicked⟩ :=
      (detection_picks_best sampleHighlighter "<12>12" ["host", "inner", "HOST"]).2 results
        (mapM_eq_ok.1 hmap)
    have hsecond : (sampleHighlighter.highlightAmong "<12>12"
        ["host", "inner", "HOST"]).value.toOption.any (·.second.isSome) = true := by
      decide +kernel
    have hsome : detection.second.isSome = true := by
      rw [hdetection] at hsecond
      exact hsecond
    refine ⟨results, detection, hscores, hdetection, ?_⟩
    rcases hpicked with ⟨-, rfl⟩ | ⟨others, hbest, -, hpicked⟩
    · cases hsome
    · rcases hpicked with ⟨-, hnone⟩ | ⟨second, rest, hothers, -, hgiven⟩
      · rw [hnone] at hsome
        cases hsome
      · exact ⟨others, second, rest, hbest, hothers, hgiven⟩
  · have hlength : (sampleBroken.candidateLanguages ["host", "inner", "host"]).length = 3 := by
      decide +kernel
    have houtcomes : (sampleBroken.candidateLanguages ["host", "inner", "host"]).map
        (fun language => (sampleBroken.highlightLanguage language "1" {}).value.isOk) =
          [true, false, true] := by
      decide +kernel
    obtain ⟨host, inner, last, hlanguages⟩ := List.length_eq_three.1 hlength
    rw [hlanguages, List.map_cons, List.map_cons, List.cons.injEq, List.cons.injEq] at houtcomes
    obtain ⟨e, he⟩ := exists_of_not_isOk houtcomes.2.1
    refine ⟨e, (detection_picks_best sampleBroken "1" ["host", "inner", "host"]).1 [host] inner
      [last] e hlanguages ?_ he⟩
    intro other hother
    rw [List.mem_singleton.1 hother]
    exact exists_of_isOk houtcomes.1

end LexicalModes
