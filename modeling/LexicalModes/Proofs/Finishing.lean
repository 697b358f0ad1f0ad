import LexicalModes.Proofs.Failures
import LexicalModes.Proofs.Progress

/-!
Highlighting finishes, however languages are embedded in each other, unless they come back to a
language they started from. Each scan ends by itself (`CompiledGrammar.Advances.ends`). Its chunks
go to registered languages (`Highlighter.handsOver`), and where that leads back to no language,
every language it leads to has a rank that is lower for the languages it hands text to in turn. A
depth above the number of registered languages is then never used up.
-/

namespace LexicalModes

open Pattern

/-- What was allowed of steps or of depth was not enough. -/
def HighlightError.isLimit : HighlightError → Bool
  | .failed _ => false
  | .stopped _ => true

/-- The computation comes to a result or to a fault, and not to a limit. -/
def Finishes {α : Type} (x : Except HighlightError α) : Prop :=
  ∀ e, x = .error e → e.isLimit = false

section Outcomes

variable {α β : Type}

@[simp] theorem finishes_ok (a : α) : Finishes (.ok a : Except HighlightError α) :=
  failsOnly_ok a

@[simp] theorem finishes_error {e : HighlightError} :
    Finishes (.error e : Except HighlightError α) ↔ e.isLimit = false :=
  failsOnly_error

theorem Finishes.traced {x : Traced α} {f : α → Traced β} (hx : Finishes x.value)
    (hf : ∀ a, x.value = .ok a → Finishes (f a).value) : Finishes (x >>= f).value :=
  FailsOnly.traced hx hf

theorem isLimit_ofMatchError (e : MatchError) :
    (HighlightError.ofMatchError e).isLimit = false := by
  cases e <;> rfl

end Outcomes

/-! ### The scan of a text -/

/-- The limit allows every scan the steps that are enough when no mode is read again. -/
def StepLimit.Sufficient (limit : StepLimit) : Prop :=
  ∀ g text stack, Scan.fuelFor g text stack ≤ limit g text stack

namespace Scan

variable {g : CompiledGrammar} {ignoreIllegals : Bool} {text : Text}

/-- A run that comes to a limit has used all its steps. -/
theorem exists_isChain_of_run {fuel : Nat} {s : Scan} {e : HighlightError}
    (h : (run g ignoreIllegals text fuel s).2 = some e) (hlimit : e.isLimit = true) :
    ∃ states, List.IsChain (Next g ignoreIllegals text) (s :: states) ∧ states.length = fuel := by
  induction fuel generalizing s with
  | zero => exact ⟨[], .singleton s, rfl⟩
  | succ fuel ih =>
      rw [run] at h
      split at h
      case h_1 next hnext =>
        obtain ⟨states, hchain, hlength⟩ := ih h
        exact ⟨next :: states, List.isChain_cons_cons.2 ⟨hnext, hchain⟩, congrArg (· + 1) hlength⟩
      case h_2 => cases h
      case h_3 =>
        cases h
        cases hlimit

end Scan

/-- A scan that ends does not come to a limit that allows enough. -/
theorem ScanCall.Ends.finishes {g : CompiledGrammar} {limit : StepLimit} {ignoreIllegals : Bool}
    {stack : Stack} {content : String} (h : ScanCall.Ends ⟨g, ignoreIllegals, stack, content⟩)
    (hlimit : limit.Sufficient) : Finishes (scan g limit ignoreIllegals stack content).outcome := by
  rw [scan]
  split
  case h_1 s e hrun =>
    refine finishes_error.2 (Bool.eq_false_iff.2 fun hstopped => ?_)
    obtain ⟨states, hchain, hlength⟩ := Scan.exists_isChain_of_run (congrArg Prod.snd hrun) hstopped
    exact absurd hlength ((h states hchain).trans_le (hlimit g _ stack)).ne
  case h_2 => exact finishes_ok _

/-! ### Requests -/

/-- An index that the grammar does not have stands for a mode that embeds nothing. -/
theorem CompiledGrammar.mem_modes_of_subLanguage {g : CompiledGrammar} {index : ModeIndex}
    {sub : SubLanguage} (hsub : (g.mode index).subLanguage = some sub) :
    g.mode index ∈ g.modes := by
  rw [mode] at hsub ⊢
  cases hmode : g.modes[index]? with
  | none =>
      rw [hmode] at hsub
      cases hsub
  | some found => exact Array.mem_of_getElem? hmode

/-- The languages that a request is made to. -/
def Request.subLanguage : Request → SubLanguage
  | .fixed name _ _ => .fixed name
  | .auto names _ => .auto names

/-- Answering the request finishes. -/
def Embedding.Finishes (embedding : Embedding) : Request → Prop
  | .fixed name content continuation =>
    LexicalModes.Finishes (embedding.fixed name content continuation).value
  | .auto names content => LexicalModes.Finishes (embedding.auto names content).value

namespace Emission

variable {g : CompiledGrammar} {embedding : Embedding}

/-- Requests are made by modes to the languages they embed. -/
theorem exists_mode_of_mem_requests {e : Emission} {events : List Event} {request : Request}
    (h : request ∈ requests g embedding e events) :
    ∃ index, (g.mode index).subLanguage = some request.subLanguage := by
  induction events generalizing e with
  | nil => cases h
  | cons event rest ih =>
      rw [requests] at h
      rcases List.mem_append.1 h with hevent | hrest
      · cases event with
        | chunk index content =>
            have hrequest := Option.mem_toList.1 hevent
            rw [request?] at hrequest
            split at hrequest
            case h_1 => cases hrequest
            case h_2 name hsub => cases hrequest; exact ⟨index, hsub⟩
            case h_3 names hsub => cases hrequest; exact ⟨index, hsub⟩
        | begins className => cases hevent
        | ends className => cases hevent
        | score weight => cases hevent
      · split at hrest
        · exact ih hrest
        · cases hrest

theorem finishes_addAll {e : Emission} {events : List Event}
    (hrequests : ∀ request ∈ requests g embedding e events, embedding.Finishes request) :
    Finishes (addAll g embedding e events).value := by
  refine failsOnly_addAll isLimit_ofMatchError fun request hmem fault hfails => ?_
  cases request with
  | fixed name content continuation => exact hrequests _ hmem fault hfails
  | auto names content => exact hrequests _ hmem fault hfails

end Emission

namespace Highlighter

/-! ### Languages that hand text to each other -/

variable (h : Highlighter)

/-- The registered languages that a mode hands its text to. -/
def targets : SubLanguage → List (String × Entry)
  | .fixed name => (h.registry.find? name).toList
  | .auto names => h.entriesAmong names

/-- The registered languages that the modes of a grammar hand text to. -/
def handsOver (g : CompiledGrammar) : List (String × Entry) :=
  g.modes.toList.flatMap fun mode => mode.subLanguage.toList.flatMap h.targets

/-- The first of two registered languages has a mode that hands its text to the second. -/
def HandsTo (name target : String) : Prop :=
  ∃ entry ∈ h.registry.languages.entries, entry.1 = name ∧
    ∃ g, entry.2.language.compile = .ok g ∧ ∃ other ∈ h.handsOver g, other.1 = target

/-- Text of the grammar may come to the registered language, perhaps through others. -/
def Involves (g : CompiledGrammar) (name : String) : Prop :=
  ∃ entry ∈ h.handsOver g, Relation.ReflTransGen h.HandsTo entry.1 name

/-- Highlighting by the entry finishes, and all scans it takes end. -/
def EntryFinishes (depth : Nat) (entry : String × Entry) : Prop :=
  ∀ content options,
    Finishes (highlightEntry (h.embedding depth) entry content options).value ∧
    ∀ call ∈ entryScans (h.embedding depth) (h.requestScans depth) entry content options, call.Ends

variable {h}

theorem mem_of_mem_targets {sub : SubLanguage} {entry : String × Entry}
    (hentry : entry ∈ h.targets sub) : entry ∈ h.registry.languages.entries := by
  cases sub with
  | fixed name => exact Registry.mem_of_find? (Option.mem_toList.1 hentry)
  | auto names => exact h.mem_of_mem_entriesAmong hentry

theorem mem_handsOver {g : CompiledGrammar} {index : ModeIndex} {sub : SubLanguage}
    (hsub : (g.mode index).subLanguage = some sub) {entry : String × Entry}
    (hentry : entry ∈ h.targets sub) : entry ∈ h.handsOver g := by
  have hmode := Array.mem_toList_iff.2 (CompiledGrammar.mem_modes_of_subLanguage hsub)
  refine List.mem_flatMap.2 ⟨g.mode index, hmode, ?_⟩
  exact List.mem_flatMap.2 ⟨sub, Option.mem_toList.2 hsub, hentry⟩

theorem mem_of_mem_handsOver {g : CompiledGrammar} {entry : String × Entry}
    (hentry : entry ∈ h.handsOver g) : entry ∈ h.registry.languages.entries := by
  obtain ⟨mode, -, hentry⟩ := List.mem_flatMap.1 hentry
  obtain ⟨sub, -, hentry⟩ := List.mem_flatMap.1 hentry
  exact mem_of_mem_targets hentry

/-! ### One level of embedding -/

theorem finishes_rank {depth : Nat} {content : String} {entries : List (String × Entry)}
    (hentries : ∀ entry ∈ entries, h.EntryFinishes depth entry) (ranking : Ranking) :
    Finishes (rank (h.embedding depth) content entries ranking).value := by
  induction entries generalizing ranking with
  | nil => exact finishes_ok _
  | cons entry rest ih =>
      rw [rank]
      refine Finishes.traced (hentries entry List.mem_cons_self content {}).1 fun result _ => ?_
      exact ih (fun other hother => hentries other (List.mem_cons_of_mem entry hother)) _

/-- A request is answered if the languages it is made to finish one level deeper. -/
theorem finishes_request {depth : Nat} {request : Request}
    (htargets : ∀ entry ∈ h.targets request.subLanguage, h.EntryFinishes depth entry) :
    (h.embedding (depth + 1)).Finishes request ∧
      ∀ call ∈ h.requestScans (depth + 1) request, call.Ends := by
  cases request with
  | fixed name content continuation =>
      change ∀ entry ∈ (h.registry.find? name).toList, _ at htargets
      simp only [Embedding.Finishes, embedding, requestScans]
      cases hfind : h.registry.find? name with
      | none => exact ⟨finishes_ok _, List.forall_mem_nil _⟩
      | some entry =>
          have hentry := htargets entry (by simp [hfind]) content
            { ignoreIllegals := true, continuation := continuation }
          exact ⟨Finishes.traced hentry.1 fun _ _ => finishes_ok _, hentry.2⟩
  | auto names content =>
      refine ⟨Finishes.traced (finishes_rank htargets _) fun _ _ => finishes_ok _, ?_⟩
      intro call hcall
      obtain ⟨entry, hentry, hcall⟩ := List.mem_flatMap.1 hcall
      exact (htargets entry hentry content {}).2 call hcall

/-- **One level.** Highlighting by a grammar finishes, and all scans it takes end, if the languages
it hands text to finish one level deeper. -/
theorem finishes_highlightByGrammar (hsteps : h.stepLimit.Sufficient) {g : CompiledGrammar}
    (hg : g.Advances) {depth : Nat}
    (htargets : ∀ entry ∈ h.handsOver g, h.EntryFinishes depth entry) (name : String)
    (ignoreIllegals : Bool) (stack : Stack) (content : String) :
    Finishes (highlightByGrammar g (h.embedding (depth + 1)) name ignoreIllegals stack
        content).value ∧
      ∀ call ∈ grammarScans (h.embedding (depth + 1)) (h.requestScans (depth + 1)) g
        ignoreIllegals stack content, call.Ends := by
  have hends := hg.ends ignoreIllegals stack content
  have hrequests : ∀ request ∈ Emission.requests g (h.embedding (depth + 1)) {}
      (scan g (h.embedding (depth + 1)).stepLimit ignoreIllegals stack content).events,
      (h.embedding (depth + 1)).Finishes request ∧
        ∀ call ∈ h.requestScans (depth + 1) request, call.Ends := by
    intro request hrequest
    obtain ⟨index, hsub⟩ := Emission.exists_mode_of_mem_requests hrequest
    exact finishes_request fun entry hentry => htargets entry (mem_handsOver hsub hentry)
  constructor
  · refine Finishes.traced (Emission.finishes_addAll fun request hmem => ?_) fun e _ => ?_
    · exact (hrequests request hmem).1
    · refine Finishes.traced (hends.finishes ?_) fun _ _ => finishes_ok _
      rw [stepLimit_embedding]
      exact hsteps
  · intro call hcall
    rcases List.mem_cons.1 hcall with rfl | hinner
    · exact hends
    · obtain ⟨request, hrequest, hcall⟩ := List.mem_flatMap.1 hinner
      exact (hrequests request hrequest).2 call hcall

theorem finishes_orVerbatim {content : String} {x : Traced Highlighted} (hx : Finishes x.value) :
    Finishes (x.orVerbatim content).value := by
  rw [Traced.orVerbatim]
  split
  · exact finishes_ok _
  · exact hx

theorem finishes_startFor (options : Options) (name : String) :
    Finishes (options.startFor name) := by
  rw [Options.startFor]
  split
  · exact finishes_ok _
  · split
    · exact finishes_ok _
    · exact finishes_error.2 rfl

theorem entryFinishes_succ (hsteps : h.stepLimit.Sufficient) {depth : Nat}
    {entry : String × Entry}
    (hadvances : ∀ g, entry.2.language.compile = .ok g → g.Advances)
    (htargets : ∀ g, entry.2.language.compile = .ok g →
      ∀ other ∈ h.handsOver g, h.EntryFinishes depth other) :
    h.EntryFinishes (depth + 1) entry := by
  intro content options
  rw [highlightEntry, entryScans, entry.2.grammar_eq]
  cases hcompile : entry.2.language.compile with
  | error cause => exact ⟨finishes_error.2 rfl, List.forall_mem_nil _⟩
  | ok g =>
      have hlevel := finishes_highlightByGrammar hsteps (hadvances g hcompile) (htargets g hcompile)
        entry.2.language.name options.ignoreIllegals
      constructor
      · refine Finishes.traced (finishes_ok _) fun _ _ => ?_
        refine Finishes.traced (finishes_startFor options _) fun stack _ => ?_
        exact finishes_orVerbatim (hlevel stack content).1
      · intro call hcall
        cases hstart : options.startFor entry.2.language.name with
        | error e =>
            simp only [compiledScans, hstart] at hcall
            cases hcall
        | ok stack =>
            simp only [compiledScans, hstart] at hcall
            exact (hlevel stack content).2 call hcall

/-! ### All levels -/

/-- **All levels.** An entry that text of the grammar may come to finishes at every depth that is
not below its rank. -/
theorem entryFinishes_of_rank_le (hsteps : h.stepLimit.Sufficient) {g : CompiledGrammar}
    {rank : String → Nat}
    (hadvances : ∀ entry ∈ h.registry.languages.entries, h.Involves g entry.1 →
      ∀ g', entry.2.language.compile = .ok g' → g'.Advances)
    (hpos : ∀ name ∈ h.registry.names, 0 < rank name)
    (hlt : ∀ {name target}, h.Involves g name → h.HandsTo name target → rank target < rank name)
    {depth : Nat} {entry : String × Entry} (hentry : entry ∈ h.registry.languages.entries)
    (hinvolves : h.Involves g entry.1) (hrank : rank entry.1 ≤ depth) :
    h.EntryFinishes depth entry := by
  induction depth generalizing entry with
  | zero =>
      -- At the limit there is no language left: a registered one has a rank above zero.
      have hname := hpos entry.1 (List.mem_map_of_mem hentry)
      omega
  | succ depth ih =>
      refine entryFinishes_succ hsteps (hadvances entry hentry hinvolves) ?_
      intro g' hcompile other hother
      have hhands : h.HandsTo entry.1 other.1 :=
        ⟨entry, hentry, rfl, g', hcompile, other, hother, rfl⟩
      have hlower := hlt hinvolves hhands
      obtain ⟨first, hfirst, hreaches⟩ := hinvolves
      exact ih (mem_of_mem_handsOver hother) ⟨first, hfirst, hreaches.tail hhands⟩ (by omega)

end Highlighter

/-- **Highlighting finishes.** When no mode of the languages that the text may come to reads its
boundaries again or comes back by following, and text is never handed back to a language it came
from, then every scan has fewer steps than `Scan.fuelFor` says; and if as many are allowed, neither
the steps nor a depth above the number of registered languages are used up. -/
theorem highlighting_finishes (h : Highlighter) (hsteps : h.stepLimit.Sufficient)
    {g : CompiledGrammar} (hg : g.Advances)
    (hadvances : ∀ entry ∈ h.registry.languages.entries, h.Involves g entry.1 →
      ∀ g', entry.2.language.compile = .ok g' → g'.Advances)
    (hacyclic : ∀ name, h.Involves g name → ¬Relation.TransGen h.HandsTo name name)
    {limit : Nat} (hlimit : h.registry.size < limit) (name : String) (ignoreIllegals : Bool)
    (stack : Stack) (content : String) :
    Finishes (highlightByGrammar g (h.embedding limit) name ignoreIllegals stack content).value ∧
      ∀ call ∈ grammarScans (h.embedding limit) (h.requestScans limit) g ignoreIllegals stack
        content, call.Ends := by
  obtain ⟨depth, rfl⟩ := Nat.exists_eq_add_one_of_ne_zero (Nat.ne_zero_of_lt hlimit)
  have hnames : ∀ {name target}, h.Involves g name ∧ h.HandsTo name target →
      name ∈ h.registry.names.toFinset := by
    rintro name target ⟨-, entry, hentry, rfl, -⟩
    exact List.mem_toFinset.2 (List.mem_map_of_mem hentry)
  -- Languages that no text of the grammar comes to may hand text around in circles.
  have hcycles : ∀ name, ¬Relation.TransGen
      (fun name target => h.Involves g name ∧ h.HandsTo name target) name name := by
    intro name hcycle
    obtain ⟨_, ⟨hinvolves, _⟩, _⟩ := Relation.TransGen.head'_iff.1 hcycle
    exact hacyclic name hinvolves (Relation.TransGen.mono (fun _ _ hstep => hstep.2) _ _ hcycle)
  obtain ⟨rank, hle, hpos, hlt⟩ := exists_rank _ hnames hcycles
  have hsize : h.registry.names.toFinset.card ≤ h.registry.size :=
    (List.toFinset_card_le _).trans_eq (List.length_map _)
  refine Highlighter.finishes_highlightByGrammar hsteps hg (fun entry hentry => ?_) name
    ignoreIllegals stack content
  refine Highlighter.entryFinishes_of_rank_le hsteps hadvances
    (fun name hname => hpos name (List.mem_toFinset.2 hname))
    (fun hinvolves hhands => hlt ⟨hinvolves, hhands⟩)
    (Highlighter.mem_of_mem_handsOver hentry) ⟨entry, hentry, .refl⟩ ?_
  have hrank := hle entry.1
  omega

/-! ### A sample -/

/-- No mode reads its boundaries again, and each is followed by later ones only. -/
def CompiledGrammar.FollowsUpward (g : CompiledGrammar) : Prop :=
  (∀ mode ∈ g.modes.toList, mode.flags.returnBegin = false ∧ mode.flags.returnEnd = false) ∧
    ∀ index < g.size, ∀ following ∈ (g.mode index).starts, index < following

instance (g : CompiledGrammar) : Decidable g.FollowsUpward := inferInstanceAs (Decidable (_ ∧ _))

theorem CompiledGrammar.FollowsUpward.advances {g : CompiledGrammar} (h : g.FollowsUpward) :
    g.Advances where
  reads := h.1
  acyclic := not_transGen_self (· < ·) fun hfollows =>
    h.2 _ (lt_size_of_starts hfollows) _ hfollows

/-- Registered languages hand text to later ones only. -/
def Highlighter.HandsUpward (h : Highlighter) : Prop :=
  ∀ entry ∈ h.registry.languages.entries, ∀ g, entry.2.language.compile = .ok g →
    ∀ other ∈ h.handsOver g, entry.1 < other.1

instance (h : Highlighter) : Decidable h.HandsUpward :=
  inferInstanceAs (Decidable (∀ entry ∈ h.registry.languages.entries, ∀ g,
    entry.2.language.compile = .ok g → ∀ other ∈ h.handsOver g, entry.1 < other.1))

theorem Highlighter.HandsUpward.acyclic {h : Highlighter} (hupward : h.HandsUpward)
    (name : String) : ¬Relation.TransGen h.HandsTo name name := by
  refine not_transGen_self (· < ·) (fun hhands => ?_) name
  obtain ⟨entry, hentry, rfl, g, hcompile, other, hother, rfl⟩ := hhands
  exact hupward entry hentry g hcompile other hother

/-- A language whose blocks are in another language. -/
def sampleOuter : Language where
  name := "outer"
  grammar := ⟨#[{ contains := [.mode 1], lexemes := some "z" },
    { beginPattern := some "<<", endPattern := some ">>", lexemes := some "z"
      subLanguage := some (.fixed "steps") }], by decide⟩

/-- A language with a mode that begins anywhere, ends anywhere and is followed by another one. -/
def sampleSteps : Language where
  name := "steps"
  grammar := ⟨#[{ contains := [.mode 1], lexemes := some "z" },
    { lexemes := some "z", starts := some 2 },
    { endPattern := some ";;", lexemes := some "z" }], by decide⟩

/-- A highlighter that knows both. -/
def sampleNested : Highlighter where
  registry := (Registry.empty.register sampleOuter).register sampleSteps

/-- Every chunk of the outer language is scanned by the inner one, which opens and closes modes
without moving on. -/
theorem highlighting_finishes_sample :
    ∃ g, sampleOuter.compile = .ok g ∧
      (g.mode 1).subLanguage = some (.fixed "steps") ∧
      Finishes (highlightByGrammar g (sampleNested.embedding 3) "outer" false ⟨[⟨1, none⟩]⟩
        "a;;b>>c<<").value ∧
      ∀ call ∈ grammarScans (sampleNested.embedding 3) (sampleNested.requestScans 3) g false
        ⟨[⟨1, none⟩]⟩ "a;;b>>c<<", call.Ends := by
  obtain ⟨g, hcompile, hfacts⟩ := exists_of_any (show sampleOuter.compile.toOption.any
    (fun g => decide g.FollowsUpward && (g.mode 1).subLanguage == some (.fixed "steps")) = true by
      decide +kernel)
  simp only [Bool.and_eq_true, decide_eq_true_eq, beq_iff_eq] at hfacts
  have hregistry : sampleNested.registry.AllCompiled CompiledGrammar.FollowsUpward := by
    decide +kernel
  have hupward : sampleNested.HandsUpward := by decide +kernel
  refine ⟨g, hcompile, hfacts.2, ?_⟩
  exact highlighting_finishes sampleNested (fun _ _ _ => Nat.le_add_right _ _) hfacts.1.advances
    (fun entry hentry _ g' hg' => (hregistry entry hentry g' hg').advances)
    (fun name _ => hupward.acyclic name) (by decide) "outer" false _ _

end LexicalModes
