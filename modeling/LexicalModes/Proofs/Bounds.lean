import LexicalModes.Proofs.ByteScan
import LexicalModes.Proofs.Conservation
import LexicalModes.Proofs.Frames

/-!
No index and no slice is out of range. The indices of modes are those of the frames, and of what
these contain and start (`CompiledGrammar.Linked`). The offsets are bytes: a scan and a search for
keywords by byte offsets panic where a part they ask for is out of range, and as they do what is
done by character positions, they do not (`scanInBytes_eq`, `classifyInBytes_eq`). At every state
of a scan the offset is a boundary of a character or one byte after the end, and a step moves it
forward by what the way the lexeme is dealt with says (`Scan.WithinBounds`).
-/

namespace LexicalModes

open Pattern

/-! ### The offset of a scan -/

namespace Scan

variable (g : CompiledGrammar) (ignoreIllegals : Bool) (content : String)

/-- One step by byte offsets leads from the first state to the second. -/
def NextInBytes (s next : Scan) : Prop :=
  s.stepInBytes? g ignoreIllegals content = .ok (some next)

/-- Steps by byte offsets lead from the first state to the second. -/
def ReachesInBytes : Scan → Scan → Prop :=
  Relation.ReflTransGen (NextInBytes g ignoreIllegals content)

/-- The search for the terminators of the innermost mode finds a match between these offsets. -/
def FindsInBytes (s : Scan) (start stop : Nat) : Prop :=
  ∃ terminators, (s.top g).terminators = some terminators ∧
    terminators.findInBytes content s.index s.index = .ok (some (start, stop))

/-- What the byte offset of a scan and the parts it cuts out of the text are like at a state. -/
structure WithinBounds (s : Scan) : Prop where
  /-- The offset is the boundary of a character, or one byte after the end. -/
  index : (String.Pos.Raw.mk s.index).IsValid content ∨ s.index = content.utf8ByteSize + 1
  /-- A step asks for no part that the text does not have. -/
  steps : s.stepInBytes? g ignoreIllegals content ≠ .error .panics
  /-- The offset moves forward, by as much after the start of what was found as the way this is
  dealt with says. -/
  moves : ∀ next, NextInBytes g ignoreIllegals content s next → s.index ≤ next.index ∧
    ∃ start stop lexeme t, FindsInBytes g content s start stop ∧
      Slices content lexeme start stop ∧ s.treatment g lexeme start = .ok t ∧
      next.index = start + s.advance g content lexeme start t
  /-- The text before what was found, and what was found. -/
  found : ∀ start stop, FindsInBytes g content s start stop →
    (∃ before, Slices content before s.index start) ∧ ∃ lexeme, Slices content lexeme start stop
  /-- The character that is stepped over. -/
  skipped : ∀ start stop, FindsInBytes g content s start stop → start < content.utf8ByteSize →
    ∃ skipped, Slices content skipped start (start + Bytes.charWidth content start)
  /-- The rest of the text; there is none when the offset is after the end. -/
  rest : (∃ rest, Slices content rest s.index content.utf8ByteSize) ∨
    s.index = content.utf8ByteSize + 1

variable {g ignoreIllegals content}

/-- The steps by byte offsets are those by positions. -/
theorem nextInBytes_inBytes {s next : Scan} :
    NextInBytes g ignoreIllegals content (s.inBytes content) next ↔
      ∃ after, Next g ignoreIllegals (Text.ofString content) s after ∧
        after.inBytes content = next := by
  simp only [NextInBytes, Next, stepInBytes?_inBytes]
  cases s.step? g ignoreIllegals (Text.ofString content) with
  | error fault => simp [Except.mapError, Functor.map, Except.map]
  | ok after => cases after <;> simp [Except.mapError, Functor.map, Except.map]

theorem reachesInBytes_of_reaches {first s : Scan}
    (h : Reaches g ignoreIllegals (Text.ofString content) first s) :
    ReachesInBytes g ignoreIllegals content (first.inBytes content) (s.inBytes content) := by
  induction h with
  | refl => exact .refl
  | tail _ hnext ih => exact ih.tail (nextInBytes_inBytes.2 ⟨_, hnext, rfl⟩)

theorem exists_reaches_of_reachesInBytes {first s : Scan}
    (h : ReachesInBytes g ignoreIllegals content (first.inBytes content) s) :
    ∃ reached, Reaches g ignoreIllegals (Text.ofString content) first reached ∧
      reached.inBytes content = s := by
  induction h with
  | refl => exact ⟨first, .refl, rfl⟩
  | tail _ hnext ih =>
      obtain ⟨reached, hreaches, rfl⟩ := ih
      obtain ⟨after, hafter, rfl⟩ := nextInBytes_inBytes.1 hnext
      exact ⟨after, hreaches.tail hafter, rfl⟩

/-- What is found from the offset of a position is a span of positions. -/
theorem exists_span_of_findsInBytes {s : Scan} {start stop : Nat}
    (h : FindsInBytes g content (s.inBytes content) start stop) :
    ∃ span : Span s.index (Text.ofString content).size,
      start = (Text.ofString content).byteAt span.start ∧
      stop = (Text.ofString content).byteAt span.stop := by
  obtain ⟨terminators, -, hfind⟩ := h
  rw [index_inBytes] at hfind
  rcases Nat.lt_or_ge (Text.ofString content).size s.index with hafter | hinside
  · rw [findInBytes, Text.position?_eq_none hafter] at hfind
    cases hfind
  · rw [findInBytes_byteAt terminators hinside hinside] at hfind
    cases hfound : terminators.findAfter? (Text.ofString content) s.index s.index with
    | error e =>
        rw [hfound] at hfind
        cases hfind
    | ok found =>
        rw [hfound] at hfind
        cases found with
        | none => cases hfind
        | some span =>
            cases hfind
            exact ⟨span, rfl, rfl⟩

/-- **One step** finds a lexeme, and moves on from its start by what the way it is dealt with
says. -/
theorem moves_of_next {s next : Scan}
    (hnext : Next g ignoreIllegals (Text.ofString content) s next) :
    ∃ (span : Span s.index (Text.ofString content).size) (t : Treatment),
      FindsInBytes g content (s.inBytes content) ((Text.ofString content).byteAt span.start)
        ((Text.ofString content).byteAt span.stop) ∧
      s.treatment g ((Text.ofString content).slice span.start span.stop) span.start = .ok t ∧
      (Text.ofString content).byteAt next.index = (Text.ofString content).byteAt span.start +
        (s.inBytes content).advance g content ((Text.ofString content).slice span.start span.stop)
          ((Text.ofString content).byteAt span.start) t := by
  obtain ⟨step, rfl, htaken, rfl⟩ := next_iff_exists_step.1 hnext
  obtain ⟨terminators, span, hterminators, hfind, hlexeme, hoffset⟩ := htaken.found
  have hinside := span.low_le_start.trans (span.start_le_stop.trans span.stop_le_size)
  refine ⟨span, step.treatment, ⟨terminators, hterminators, ?_⟩, ?_, ?_⟩
  · rw [index_inBytes, findInBytes_byteAt terminators hinside hinside]
    rw [find?] at hfind
    rw [hfind]
    rfl
  · rw [← hlexeme, ← hoffset]
    exact htaken.treats
  · have hadvance := byteAt_add_advance (g := g) (step.gathered (Text.ofString content))
      span.start_le_stop span.stop_le_size step.treatment
    rw [Step.result, hlexeme, hoffset, ← hadvance]
    cases step.treatment <;> rfl

/-- **One step** leads to the start of what it finds, to its end, or one character after its
start. -/
theorem index_of_next {text : Text} {s next : Scan}
    (hnext : Next g ignoreIllegals text s next) :
    ∃ span : Span s.index text.size,
      next.index = span.start ∨ next.index = span.stop ∨ next.index = span.start + 1 := by
  obtain ⟨terminators, span, -, -, hdispatched⟩ := step?_eq_some hnext
  refine ⟨span, ?_⟩
  have hlength := start_add_length span
  cases hdispatched with
  | entered hmoving hbegin =>
      rw [index_enter, hlength]
      split
      · exact .inl rfl
      · exact .inr (.inl rfl)
  | left hmoving hbegin hend =>
      rw [index_leave, hlength]
      split
      · exact .inl rfl
      · exact .inr (.inl rfl)
  | steppedOver hstalled => exact .inr (.inr rfl)
  | passed hbegin hend hlegal =>
      change _ ∨ span.start + max 1 (text.slice span.start span.stop).length = span.stop ∨
        span.start + max 1 (text.slice span.start span.stop).length = span.start + 1
      -- A lexeme that means nothing is passed over, an empty one together with a character.
      by_cases hempty : (text.slice span.start span.stop).length = 0
      · exact .inr (.inr (by omega))
      · exact .inr (.inl (by omega))

/-- **A run** never goes further than one position after the end. -/
theorem index_le_of_reaches {text : Text} {stack : Stack} {s : Scan}
    (hreaches : Reaches g ignoreIllegals text (initial g stack) s) : s.index ≤ text.size + 1 := by
  refine hreaches.keeps (P := fun s => s.index ≤ text.size + 1) (Nat.zero_le _) ?_
  intro s next _ hnext _
  obtain ⟨span, hindex⟩ := index_of_next hnext
  have hstart := span.start_le_stop
  have hstop := span.stop_le_size
  omega

theorem withinBounds_of_reaches {stack : Stack} {s : Scan}
    (hreaches : Reaches g ignoreIllegals (Text.ofString content) (initial g stack) s) :
    (s.inBytes content).WithinBounds g ignoreIllegals content := by
  have hsize := index_le_of_reaches hreaches
  have hafter : ¬s.index ≤ (Text.ofString content).size →
      (Text.ofString content).byteAt s.index = content.utf8ByteSize + 1 := by
    intro hlarge
    have hend : s.index = (Text.ofString content).size + 1 := by omega
    rw [hend, Text.byteAt_succ_of_size_le (Nat.le_refl _), Text.byteAt_size]
  constructor
  case index =>
    by_cases hle : s.index ≤ (Text.ofString content).size
    · exact .inl (Text.isValid_byteAt hle)
    · exact .inr (hafter hle)
  case steps =>
    rw [stepInBytes?_inBytes]
    cases s.step? g ignoreIllegals (Text.ofString content) <;> exact nofun
  case moves =>
    intro next hnext
    obtain ⟨after, hafter, rfl⟩ := nextInBytes_inBytes.1 hnext
    obtain ⟨span, t, hfinds, htreats, hmoved⟩ := moves_of_next hafter
    have hforward : (Text.ofString content).byteAt s.index ≤
        (Text.ofString content).byteAt after.index := by
      rw [hmoved]
      exact (Text.byteAt_strictMono.monotone span.low_le_start).trans (Nat.le_add_right _ _)
    refine ⟨hforward, _, _, _, t, hfinds,
      Text.slices_slice span.start_le_stop span.stop_le_size, ?_, hmoved⟩
    rw [treatment_inBytes]
    exact htreats
  case found =>
    intro start stop hfinds
    obtain ⟨span, rfl, rfl⟩ := exists_span_of_findsInBytes hfinds
    exact ⟨⟨_, Text.slices_slice span.low_le_start (span.start_le_stop.trans span.stop_le_size)⟩,
      _, Text.slices_slice span.start_le_stop span.stop_le_size⟩
  case skipped =>
    intro start stop hfinds hlt
    obtain ⟨span, rfl, rfl⟩ := exists_span_of_findsInBytes hfinds
    rw [← Text.byteAt_size, Text.byteAt_strictMono.lt_iff_lt] at hlt
    rw [← Text.byteAt_succ]
    exact ⟨_, Text.slices_slice (Nat.le_succ _) hlt⟩
  case rest =>
    by_cases hle : s.index ≤ (Text.ofString content).size
    · rw [← Text.byteAt_size]
      exact .inl ⟨_, Text.slices_slice hle (Nat.le_refl _)⟩
    · exact .inr (hafter hle)

end Scan

/-! ### The search for keywords -/

/-- Add the text before a word and the word itself, as a keyword if it is one. -/
def Classified.addWord (table : KeywordTable) (caseInsensitive : Bool) (c : Classified)
    (before word : String) : Classified :=
  let stream := c.stream.pushText before
  match table.lookup (if caseInsensitive then Unicode.lowercase word else word) with
  | some k => ⟨stream.push (.keyword k.className word), Relevance.add c.relevance k.weight⟩
  | none => ⟨stream.pushText word, c.relevance⟩

section

variable (p : Pattern) (table : KeywordTable) (caseInsensitive : Bool) (content : String)

/-- Search for lexemes from a byte offset and add them as they are found, and the text before each,
from the end of the last one. Returns the end of the last of all, or why the search was given up. -/
def classifyFrom : Nat → Nat → Nat → Classified → Classified × Except (Halt MatchError) Nat
  | 0, last, _, c => (c, .ok last)
  | fuel + 1, last, position, c =>
    if content.utf8ByteSize < position then (c, .ok last)
    else
      match p.findInBytes content last position with
      | .error halt => (c, .error halt)
      | .ok none => (c, .ok last)
      | .ok (some (start, stop)) =>
        if start = stop then classifyFrom fuel last (stop + Bytes.charWidth content stop) c
        else
          match Bytes.get? content last start, Bytes.get? content start stop with
          | some before, some word =>
            classifyFrom fuel stop stop (c.addWord table caseInsensitive before word)
          | _, _ => (c, .error .panics)

end

/-- Add a text of the mode to the tokens with its keywords marked, by byte offsets. -/
def classifyInBytes (mode : CompiledMode) (content : String) (caseInsensitive : Bool)
    (stream : Stream) : Stream × Except (Halt MatchError) Relevance :=
  match mode.keywords with
  | none => (stream.pushText content, .ok 0)
  | some table =>
    let fuel := 2 * (Text.ofString content).size + 4
    match classifyFrom mode.lexemes table caseInsensitive content fuel 0 0 ⟨stream, 0⟩ with
    | (c, .error halt) => (c.stream, .error halt)
    | (c, .ok last) =>
      match Bytes.get? content last content.utf8ByteSize with
      | some rest => (c.stream.pushText rest, .ok c.relevance)
      | none => (c.stream, .error .panics)

/-- **The search** by byte offsets does not panic, and adds the lexemes that are found by
positions. -/
theorem classifyFrom_byteAt (p : Pattern) (table : KeywordTable) (caseInsensitive : Bool)
    (content : String) (fuel : Nat) {last : Nat} (hlast : last ≤ (Text.ofString content).size)
    (position : Nat) (c : Classified) :
    classifyFrom p table caseInsensitive content fuel ((Text.ofString content).byteAt last)
        ((Text.ofString content).byteAt position) c =
      ((c.addLexemes table caseInsensitive (Text.ofString content) last
          (lexemesFrom p (Text.ofString content) fuel last position).1).1,
        match (lexemesFrom p (Text.ofString content) fuel last position).2 with
        | some e => .error (.fails e)
        | none => .ok ((Text.ofString content).byteAt (c.addLexemes table caseInsensitive
            (Text.ofString content) last
              (lexemesFrom p (Text.ofString content) fuel last position).1).2)) := by
  induction fuel generalizing last position c with
  | zero => rfl
  | succ fuel ih =>
      rw [classifyFrom]
      rcases Nat.lt_or_ge (Text.ofString content).size position with hafter | hinside
      · have hnone : p.findAfter? (Text.ofString content) last position = .ok none := if_pos hafter
        rw [if_pos (Text.utf8ByteSize_lt_byteAt.2 hafter), lexemesFrom, hnone]
        rfl
      · rw [if_neg (mt Text.utf8ByteSize_lt_byteAt.1 (Nat.not_lt.2 hinside)),
          Pattern.findInBytes_byteAt p hlast hinside, lexemesFrom]
        cases p.findAfter? (Text.ofString content) last position with
        | error e => rfl
        | ok found =>
            cases found with
            | none => rfl
            | some span =>
                have hspan := span.start_le_stop.trans span.stop_le_size
                change (if (Text.ofString content).byteAt span.start =
                  (Text.ofString content).byteAt span.stop then _ else _) = _
                dsimp only
                by_cases hempty : span.start = span.stop
                · simp only [if_pos (congrArg (Text.ofString content).byteAt hempty),
                    if_pos hempty, ← Text.byteAt_succ]
                  exact ih hlast (span.stop + 1) c
                · simp only [if_neg (Text.byteAt_strictMono.injective.ne hempty), if_neg hempty,
                    Text.get?_byteAt span.low_le_start hspan,
                    Text.get?_byteAt span.start_le_stop span.stop_le_size]
                  exact ih span.stop_le_size span.stop _

/-- **Classifying** by byte offsets does not panic, and is classifying by positions. -/
theorem classifyInBytes_eq (mode : CompiledMode) (content : String) (caseInsensitive : Bool)
    (stream : Stream) :
    classifyInBytes mode content caseInsensitive stream =
      ((classify mode content caseInsensitive stream).1,
        (classify mode content caseInsensitive stream).2.mapError .fails) := by
  cases hkeywords : mode.keywords with
  | none =>
      simp only [classifyInBytes, classify, hkeywords]
      rfl
  | some table =>
      have hfrom := classifyFrom_byteAt mode.lexemes table caseInsensitive content
        (2 * (Text.ofString content).size + 4) (Nat.zero_le _) 0 ⟨stream, 0⟩
      rw [Text.byteAt_zero] at hfrom
      have hlast := (chained_lexemesIn mode.lexemes (Text.ofString content)).lastEnd_le
        (Nat.zero_le _)
      rw [← (Classified.addLexemes_eq table caseInsensitive (Text.ofString content) ⟨stream, 0⟩ 0
        (lexemesIn mode.lexemes (Text.ofString content)).1).2] at hlast
      have hrest := Text.get?_byteAt hlast (Nat.le_refl _)
      rw [Text.byteAt_size] at hrest
      simp only [classifyInBytes, classify, hkeywords, hfrom, lexemesIn] at hrest ⊢
      cases (lexemesFrom mode.lexemes (Text.ofString content)
          (2 * (Text.ofString content).size + 4) 0 0).2 with
      | some e => rfl
      | none =>
          simp only [hrest]
          rfl

/-! ### The lexemes of a chunk -/

/-- The parts that lexemes cut a text of the given size into: what is before each of them, the
lexemes, and the rest. -/
def cuts (size : Nat) : Nat → List (Nat × Nat) → List (Nat × Nat)
  | last, [] => [(last, size)]
  | last, lexeme :: rest => (last, lexeme.1) :: lexeme :: cuts size lexeme.2 rest

theorem Chained.of_mem_cuts {size last : Nat} {lexemes : List (Nat × Nat)}
    (h : Chained size last lexemes) (hlast : last ≤ size) :
    ∀ cut ∈ cuts size last lexemes, cut.1 ≤ cut.2 ∧ cut.2 ≤ size := by
  induction lexemes generalizing last with
  | nil => exact List.forall_mem_singleton.2 ⟨hlast, Nat.le_refl size⟩
  | cons lexeme rest ih =>
      obtain ⟨hbefore, hlexeme, hinside, hrest⟩ := h
      refine List.forall_mem_cons.2 ⟨⟨hbefore, hlexeme.le.trans hinside⟩, ?_⟩
      exact List.forall_mem_cons.2 ⟨⟨hlexeme.le, hinside⟩, ih hrest hinside⟩

/-- The tokens of lexemes and the rest of the text are the parts they cut it into. -/
theorem content_lexemeTokens (table : KeywordTable) (caseInsensitive : Bool) (text : Text)
    (last : Nat) (lexemes : List (Nat × Nat)) :
    (lexemeTokens table caseInsensitive text last lexemes).map Token.content ++
        [text.slice (lastEnd last lexemes) text.size] =
      (cuts text.size last lexemes).map fun cut => text.slice cut.1 cut.2 := by
  induction lexemes generalizing last with
  | nil => rfl
  | cons lexeme rest ih =>
      simp only [lexemeTokens, cuts, List.map_cons, List.cons_append, lastEnd, ih,
        Token.content_text, content_wordToken]

/-- The tokens that a search for keywords adds are the parts that the lexemes cut the text into, up
to where the search was given up. -/
theorem exists_leaves_of_classify {mode : CompiledMode} (hkeywords : mode.keywords.isSome = true)
    (content : String) (caseInsensitive : Bool) (stream : Stream) :
    ∃ leaves, (classify mode content caseInsensitive stream).1 = stream.appendJoined leaves ∧
      leaves.map Token.content <+:
        (cuts (Text.ofString content).size 0
          (lexemesIn mode.lexemes (Text.ofString content)).1).map
            fun cut => (Text.ofString content).slice cut.1 cut.2 := by
  obtain ⟨table, htable⟩ := Option.isSome_iff_exists.1 hkeywords
  rcases hlexemes : lexemesIn mode.lexemes (Text.ofString content) with ⟨lexemes, fault⟩
  obtain ⟨hstream, hlast⟩ := Classified.addLexemes_eq table caseInsensitive
    (Text.ofString content) ⟨stream, 0⟩ 0 lexemes
  rw [← content_lexemeTokens table caseInsensitive]
  cases fault with
  | some e =>
      refine ⟨_, ?_, List.prefix_append _ _⟩
      simp only [classify, htable, hlexemes]
      exact hstream
  | none =>
      refine ⟨lexemeTokens table caseInsensitive (Text.ofString content) 0 lexemes ++
        [.text ((Text.ofString content).slice (lastEnd 0 lexemes) (Text.ofString content).size)],
        ?_, ?_⟩
      · simp only [classify, htable, hlexemes]
        rw [Stream.appendJoined_append, ← hstream, ← hlast]
        rfl
      · rw [List.map_append]
        exact List.prefix_rfl

/-- **Nothing is out of range.** In a chain of calls every index of a mode that a scan looks up is
that of a mode. A scan by byte offsets panics nowhere, its offset is a boundary of a character or
one byte after the end and moves forward, and what it cuts out of the text is a slice of it. The
search for keywords panics nowhere either, and the parts that it cuts its text into are slices of
that. -/
theorem scan_within_bounds {language : Language} {g : CompiledGrammar}
    (hcompile : language.compile = .ok g) :
    (∀ stack, g.ResumesAt stack → ∀ (ignoreIllegals : Bool) (content : String) (s : Scan),
      Scan.Inside g ignoreIllegals (Text.ofString content) (Scan.initial g stack) s →
      ∀ frame ∈ Stack.rootFrame :: s.stack.frames, frame.mode < g.size ∧
        (∀ child ∈ (g.mode frame.mode).contains, child < g.size) ∧
        ∀ following ∈ (g.mode frame.mode).starts, following < g.size) ∧
    (∀ (stack : Stack) (ignoreIllegals : Bool) (content : String),
      (∀ limit : StepLimit, scanInBytes g limit ignoreIllegals stack content =
        ((scan g limit ignoreIllegals stack content).events,
          (scan g limit ignoreIllegals stack content).outcome.mapError .fails)) ∧
      ∀ s, Scan.ReachesInBytes g ignoreIllegals content (Scan.initial g stack) s →
        s.WithinBounds g ignoreIllegals content) ∧
    ∀ (index : ModeIndex) (content : String),
      (∀ (caseInsensitive : Bool) (stream : Stream),
        classifyInBytes (g.mode index) content caseInsensitive stream =
          ((classify (g.mode index) content caseInsensitive stream).1,
            (classify (g.mode index) content caseInsensitive stream).2.mapError .fails)) ∧
      ((g.mode index).keywords.isSome = true →
        (∀ (caseInsensitive : Bool) (stream : Stream), ∃ leaves,
          (classifyInBytes (g.mode index) content caseInsensitive stream).1 =
            stream.appendJoined leaves ∧
          leaves.map Token.content <+:
            (cuts (Text.ofString content).size 0
              (lexemesIn (g.mode index).lexemes (Text.ofString content)).1).map
                fun cut => (Text.ofString content).slice cut.1 cut.2) ∧
        ∀ cut ∈ cuts (Text.ofString content).size 0
            (lexemesIn (g.mode index).lexemes (Text.ofString content)).1,
          Slices content ((Text.ofString content).slice cut.1 cut.2)
            ((Text.ofString content).byteAt cut.1) ((Text.ofString content).byteAt cut.2)) := by
  have hlinked := Grammar.linked_of_compile hcompile
  refine ⟨?_, ?_, ?_⟩
  · intro stack hstack ignoreIllegals content s hs frame hframe
    have hrange := hstack.inRange_of_inside hlinked hs
    refine ⟨?_, fun child hchild => hlinked.contains hchild,
      fun following hstarts => hlinked.starts hstarts⟩
    rcases List.mem_cons.1 hframe with rfl | hframe
    · exact hlinked.root
    · exact hrange frame hframe
  · intro stack ignoreIllegals content
    refine ⟨fun limit => scanInBytes_eq g limit ignoreIllegals stack content, fun s hs => ?_⟩
    rw [← Scan.inBytes_initial content] at hs
    obtain ⟨reached, hreaches, rfl⟩ := Scan.exists_reaches_of_reachesInBytes hs
    exact Scan.withinBounds_of_reaches hreaches
  · intro index content
    refine ⟨classifyInBytes_eq (g.mode index) content, fun hkeywords => ⟨?_, ?_⟩⟩
    · intro caseInsensitive stream
      rw [classifyInBytes_eq]
      exact exists_leaves_of_classify hkeywords content caseInsensitive stream
    · intro cut hcut
      have hchained := chained_lexemesIn (g.mode index).lexemes (Text.ofString content)
      obtain ⟨hordered, hinside⟩ := hchained.of_mem_cuts (Nat.zero_le _) cut hcut
      exact Text.slices_slice hordered hinside

/-- A language with a mode that begins and ends, without a character, where a line does. -/
def sampleLines : Language where
  name := "lines"
  grammar := ⟨#[{ contains := [.mode 1], keywords := some (.plain "é"), lexemes := some "é" },
    { beginPattern := some "^|$", endPattern := some "^|$", lexemes := some "z" }], by decide⟩

/-- The mode is opened before a character of two bytes and cannot be left there, so the scan steps
over the character; in the end it steps over the end of the text. The search for keywords cuts the
character out of a text. -/
theorem scan_within_bounds_sample :
    ∃ g second last, sampleLines.compile = .ok g ∧
      Scan.ReachesInBytes g false "é" (Scan.initial g .empty) second ∧
      second.index = 2 ∧ (String.Pos.Raw.mk 2).IsValid "é" ∧ second.stack.depth = 1 ∧
      (∀ frame ∈ Stack.rootFrame :: second.stack.frames, frame.mode < g.size) ∧
      Scan.ReachesInBytes g false "é" (Scan.initial g .empty) last ∧ last.index = 3 ∧
      last.stepInBytes? g false "é" ≠ .error .panics ∧
      (scanInBytes g Scan.fuelFor false .empty "é").2 =
        (scan g Scan.fuelFor false .empty "é").outcome.mapError .fails ∧
      Slices "aéb" "é" 1 3 := by
  obtain ⟨g, hcompile, hfacts⟩ := exists_of_any (show sampleLines.compile.toOption.any
    (fun g =>
      let text := Text.ofString "é"
      let second := (Scan.run g false text 2 (Scan.initial g .empty)).1
      let last := (Scan.run g false text 5 (Scan.initial g .empty)).1
      text.byteAt second.index == 2 && second.stack.depth == 1 && text.byteAt last.index == 3 &&
        (g.mode 0).keywords.isSome &&
        decide ((1, 2) ∈ cuts 3 0 (lexemesIn (g.mode 0).lexemes (Text.ofString "aéb")).1)) = true by
      decide +kernel)
  simp only [Bool.and_eq_true, beq_iff_eq, decide_eq_true_eq] at hfacts
  obtain ⟨⟨⟨⟨hsecond, hdepth⟩, hlast⟩, hkeywords⟩, hcut⟩ := hfacts
  obtain ⟨hmodes, hscan, hclassify⟩ := scan_within_bounds hcompile
  obtain ⟨hequal, hbounds⟩ := hscan .empty false "é"
  have hreaches : ∀ fuel, Scan.Reaches g false (Text.ofString "é") (Scan.initial g .empty)
      (Scan.run g false (Text.ofString "é") fuel (Scan.initial g .empty)).1 :=
    fun fuel => Scan.reaches_run fuel _
  have hbytes : ∀ fuel, Scan.ReachesInBytes g false "é" (Scan.initial g .empty)
      ((Scan.run g false (Text.ofString "é") fuel (Scan.initial g .empty)).1.inBytes "é") := by
    intro fuel
    rw [← Scan.inBytes_initial "é"]
    exact Scan.reachesInBytes_of_reaches (hreaches fuel)
  refine ⟨g, _, _, hcompile, hbytes 2, hsecond, ?_, hdepth, ?_, hbytes 5, hlast,
    (hbounds _ (hbytes 5)).steps, congrArg Prod.snd (hequal Scan.fuelFor), ?_⟩
  · have hindex := (hbounds _ (hbytes 2)).index
    rw [Scan.index_inBytes, hsecond] at hindex
    exact hindex.resolve_right (by decide)
  · intro frame hframe
    exact (hmodes .empty .root false "é" _ (.between (hreaches 2)) frame hframe).1
  · exact ((hclassify 0 "aéb").2 hkeywords).2 (1, 2) hcut

end LexicalModes
