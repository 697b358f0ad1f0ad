import Mathlib.Data.Finset.Card
import Mathlib.Tactic.Ring
import LexicalModes.Proofs.Conservation
import LexicalModes.Proofs.Frames

/-!
A scan ends when no mode reads its boundaries again and no mode comes back to itself by following
(`CompiledGrammar.Advances`). Lexemes may be empty, so a step need not move on in the text. What it
uses up then is the right to open a mode here, or frames: a frame counts for the modes that can
still follow in its place, and whatever follows it counts less. Together with the characters ahead
these make up a `Scan.potential` that every step lowers, and the steps allowed for a scan are more
than there is at the start.
-/

namespace LexicalModes

open Pattern

/-- A relation without cycles that leads on from finitely many elements only has a rank that goes
down along it. -/
theorem exists_rank {α : Type} {r : α → α → Prop} (sources : Finset α)
    (hsources : ∀ {a b}, r a b → a ∈ sources) (hacyclic : ∀ a, ¬Relation.TransGen r a a) :
    ∃ rank : α → Nat, (∀ a, rank a ≤ sources.card) ∧ (∀ a ∈ sources, 0 < rank a) ∧
      ∀ {a b}, r a b → rank b < rank a := by
  classical
  -- The rank of an element is how many sources can be reached from it.
  refine ⟨fun a => (sources.filter (Relation.ReflTransGen r a)).card, ?_, ?_, ?_⟩
  · intro a
    exact Finset.card_filter_le _ _
  · intro a ha
    exact Finset.card_pos.2 ⟨a, Finset.mem_filter.2 ⟨ha, .refl⟩⟩
  · intro a b hab
    have hsubset : sources.filter (Relation.ReflTransGen r b) ⊆
        sources.filter (Relation.ReflTransGen r a) := by
      intro c hc
      obtain ⟨hsource, hbc⟩ := Finset.mem_filter.1 hc
      exact Finset.mem_filter.2 ⟨hsource, .head hab hbc⟩
    have ha : a ∈ sources.filter (Relation.ReflTransGen r a) :=
      Finset.mem_filter.2 ⟨hsources hab, .refl⟩
    have hnot : a ∉ sources.filter (Relation.ReflTransGen r b) := by
      intro hmem
      exact hacyclic a (.head' hab (Finset.mem_filter.1 hmem).2)
    exact Finset.card_lt_card (Finset.ssubset_iff_of_subset hsubset |>.2 ⟨a, ha, hnot⟩)

/-- A relation that goes only upward has no cycles. -/
theorem not_transGen_self {α : Type} {r : α → α → Prop} (upward : α → α → Prop) [IsTrans α upward]
    [Std.Irrefl upward] (h : ∀ {a b}, r a b → upward a b) (a : α) : ¬Relation.TransGen r a a := by
  intro hcycle
  have hpath : Relation.TransGen upward a a := Relation.TransGen.mono (fun _ _ => h) _ _ hcycle
  rw [Relation.transGen_eq_self] at hpath
  exact Std.Irrefl.irrefl a hpath

namespace CompiledGrammar

variable (g : CompiledGrammar)

/-- The second mode is opened when the first one ends. -/
def Follows (index following : ModeIndex) : Prop := (g.mode index).starts = some following

/-- No boundary of a mode is read again, and no mode comes back by following others. -/
structure Advances : Prop where
  reads : ∀ mode ∈ g.modes.toList,
    mode.flags.returnBegin = false ∧ mode.flags.returnEnd = false
  acyclic : ∀ index, ¬Relation.TransGen g.Follows index index

variable {g}

theorem Advances.flags (h : g.Advances) (index : ModeIndex) :
    (g.mode index).flags.returnBegin = false ∧ (g.mode index).flags.returnEnd = false := by
  rw [CompiledGrammar.mode]
  cases hmode : g.modes[index]? with
  | none => exact ⟨rfl, rfl⟩
  | some mode => exact h.reads mode (Array.mem_toList_iff.2 (Array.mem_of_getElem? hmode))

theorem Advances.exists_rank (h : g.Advances) :
    ∃ rank : ModeIndex → Nat, (∀ index, rank index ≤ g.size) ∧
      ∀ {index following}, g.Follows index following → rank following < rank index := by
  obtain ⟨rank, hle, -, hlt⟩ := LexicalModes.exists_rank (Finset.range g.size)
    (fun hfollows => Finset.mem_range.2 (lt_size_of_starts hfollows)) h.acyclic
  rw [Finset.card_range] at hle
  exact ⟨rank, hle, hlt⟩

end CompiledGrammar

/-! ### The potential of a scan -/

namespace Scan

section Potential

variable (g : CompiledGrammar) (rank : ModeIndex → Nat)

/-- Each frame counts one more than its mode. -/
def weight (frames : List Frame) : Nat := (frames.map fun frame => rank frame.mode + 1).sum

/-- What the steps of a scan use up: the characters ahead and the end of the text, the right to open
a mode by an empty lexeme, and the frames. -/
def potential (text : Text) (s : Scan) : Nat :=
  2 * (g.size + 2) * (text.size + 1 - s.index) +
    (if s.entered = some s.index then 0 else g.size + 2) + weight rank s.stack.frames

variable {g rank}

@[simp] theorem weight_cons (frame : Frame) (frames : List Frame) :
    weight rank (frame :: frames) = rank frame.mode + 1 + weight rank frames := by
  rw [weight, List.map_cons, List.sum_cons]
  rfl

@[simp] theorem weight_append (inner outer : List Frame) :
    weight rank (inner ++ outer) = weight rank inner + weight rank outer := by
  rw [weight, List.map_append, List.sum_append]
  rfl

theorem weight_le (hle : ∀ index, rank index ≤ g.size) (frames : List Frame) :
    weight rank frames ≤ frames.length * (g.size + 1) := by
  induction frames with
  | nil => exact Nat.zero_le _
  | cons frame below ih =>
      have hframe := hle frame.mode
      rw [weight_cons, List.length_cons, Nat.add_one_mul]
      omega

/-- What follows a frame counts less than the frame. -/
theorem weight_followers_lt
    (hlt : ∀ {index following}, g.Follows index following → rank following < rank index)
    (frame : Frame) : weight rank (followers g frame) < rank frame.mode + 1 := by
  rw [followers]
  cases hstarts : (g.mode frame.mode).starts with
  | none => exact Nat.succ_pos _
  | some following =>
      have hfollowing : rank following < rank frame.mode := hlt hstarts
      simp only [Option.map_some, Option.toList_some, weight_cons]
      change rank following + 1 + 0 < _
      omega

/-- A step makes the frames count more only by what it opens. -/
theorem FramesStep.weight_le (hle : ∀ index, rank index ≤ g.size)
    (hlt : ∀ {index following}, g.Follows index following → rank following < rank index)
    {frames next : List Frame} (h : FramesStep g frames next) :
    weight rank next ≤ weight rank frames + (g.size + 1) := by
  cases h with
  | same => exact Nat.le_add_right _ _
  | @opened child closer hchild hbegins =>
      have hrank := hle child
      rw [weight_cons]
      change rank child + 1 + _ ≤ _
      omega
  | @closed inner below frame hframes =>
      have hfollowers := weight_followers_lt hlt frame
      rw [hframes, weight_append, weight_append, weight_cons]
      omega

variable {text : Text} {s next : Scan}

/-- Moving on in the text pays for all else. -/
theorem potential_lt_of_index_lt (hindex : s.index < next.index)
    (hsize : next.index ≤ text.size + 1)
    (hweight : weight rank next.stack.frames ≤ weight rank s.stack.frames + (g.size + 1)) :
    potential g rank text next < potential g rank text s := by
  have hahead : text.size + 1 - next.index + 1 ≤ text.size + 1 - s.index := by omega
  have hpaid : 2 * (g.size + 2) * (text.size + 1 - next.index) + 2 * (g.size + 2) ≤
      2 * (g.size + 2) * (text.size + 1 - s.index) := by
    rw [← Nat.mul_add_one]
    exact Nat.mul_le_mul_left _ hahead
  have hright : (if next.entered = some next.index then 0 else g.size + 2) ≤ g.size + 2 := by
    split <;> omega
  rw [potential, potential]
  omega

/-- A step that stays where it is closes frames or uses up the right to open one. -/
theorem potential_lt_of_index_eq (hindex : next.index = s.index)
    (hright : s.entered ≠ some s.index)
    (hstep : weight rank next.stack.frames < weight rank s.stack.frames ∨
      next.entered = some next.index ∧
        weight rank next.stack.frames ≤ weight rank s.stack.frames + (g.size + 1)) :
    potential g rank text next < potential g rank text s := by
  rw [potential, potential, if_neg hright, hindex]
  rcases hstep with hweight | ⟨hentered, hweight⟩
  · split <;> omega
  · rw [hindex] at hentered
    rw [if_pos hentered]
    omega

variable {ignoreIllegals : Bool}

/-- **One step** lowers the potential. -/
theorem potential_lt_of_next (hg : g.Advances) (hle : ∀ index, rank index ≤ g.size)
    (hlt : ∀ {index following}, g.Follows index following → rank following < rank index)
    (hnext : Next g ignoreIllegals text s next) :
    potential g rank text next < potential g rank text s := by
  have hweight := (framesStep_of_next hnext).weight_le hle hlt
  obtain ⟨terminators, span, -, -, hdispatched⟩ := step?_eq_some hnext
  have hlow := span.low_le_start
  have hstart := span.start_le_stop
  have hstop := span.stop_le_size
  have hlength := start_add_length span
  -- A lexeme that ends where the search began is empty, and no mode was opened there by one.
  have hright : ¬(s.gather (text.slice s.index span.start)).Stalled
      (text.slice span.start span.stop) span.start → ¬s.index < span.stop →
      s.entered ≠ some s.index := by
    intro hmoving hstays hentered
    have hindex : s.index = span.start := by omega
    refine hmoving ⟨text.slice_eq_empty (by omega), ?_⟩
    rw [← hindex]
    exact hentered
  cases hdispatched with
  | @entered child closer hmoving hbegin =>
      have hindex : (enter g (s.gather (text.slice s.index span.start)).settled child closer
          (text.slice span.start span.stop) span.start).index = span.stop := by
        rw [index_enter, (hg.flags child).1, if_neg Bool.false_ne_true, hlength]
      by_cases hmoves : s.index < span.stop
      · exact potential_lt_of_index_lt (by omega) (by omega) hweight
      · refine potential_lt_of_index_eq (by omega) (hright hmoving hmoves) (.inr ⟨?_, hweight⟩)
        rw [hindex]
        exact congrArg some (by omega)
  | @left depth hmoving hbegin hend =>
      have hindex : (leave g (s.gather (text.slice s.index span.start)).settled depth
          (text.slice span.start span.stop) span.start).index = span.stop := by
        rw [index_leave, Scan.top, (hg.flags _).2, if_neg Bool.false_ne_true, hlength]
      by_cases hmoves : s.index < span.stop
      · exact potential_lt_of_index_lt (by omega) (by omega) hweight
      · refine potential_lt_of_index_eq (by omega) (hright hmoving hmoves) (.inl ?_)
        obtain ⟨inner, frame, below, hframes, rfl⟩ := exists_of_ending? hend
        have hfollowers := weight_followers_lt hlt frame
        have hbefore : s.stack.frames = inner ++ frame :: below := hframes
        rw [frames_leave (s := (s.gather (text.slice s.index span.start)).settled) hframes,
          hbefore, weight_append, weight_append, weight_cons]
        omega
  | steppedOver hstalled =>
      refine potential_lt_of_index_lt ?_ ?_ hweight
      · change s.index < span.start + 1
        omega
      · change span.start + 1 ≤ text.size + 1
        omega
  | passed hbegin hend hlegal =>
      refine potential_lt_of_index_lt ?_ ?_ hweight
      · change s.index < span.start + max 1 (text.slice span.start span.stop).length
        omega
      · change span.start + max 1 (text.slice span.start span.stop).length ≤ text.size + 1
        omega

/-- **A run** takes no more steps than the potential it starts with. -/
theorem length_le_potential (hg : g.Advances) (hle : ∀ index, rank index ≤ g.size)
    (hlt : ∀ {index following}, g.Follows index following → rank following < rank index)
    {states : List Scan} (hchain : List.IsChain (Next g ignoreIllegals text) (s :: states)) :
    states.length ≤ potential g rank text s := by
  induction states generalizing s with
  | nil => exact Nat.zero_le _
  | cons next rest ih =>
      obtain ⟨hnext, hrest⟩ := List.isChain_cons_cons.1 hchain
      have hlower := potential_lt_of_next hg hle hlt hnext
      have hlength := ih hrest
      rw [List.length_cons]
      omega

/-- There is less potential at the start than steps are allowed. -/
theorem potential_initial_lt (hle : ∀ index, rank index ≤ g.size) (stack : Stack) :
    potential g rank text (initial g stack) < fuelFor g text stack := by
  have hweight := weight_le hle stack.frames
  have hdepth : stack.frames.length * (g.size + 1) ≤ stack.depth * (g.size + 2) :=
    Nat.mul_le_mul_left _ (Nat.le_succ _)
  calc potential g rank text (initial g stack)
      = 2 * (g.size + 2) * (text.size + 1) + (g.size + 2) + weight rank stack.frames := rfl
    _ ≤ 2 * (g.size + 2) * (text.size + 1) + (g.size + 2) + stack.depth * (g.size + 2) := by
        omega
    _ = (2 * text.size + stack.depth + 3) * (g.size + 2) := by ring
    _ < (4 * (text.size + stack.depth + 2)) * (g.size + 2) :=
        Nat.mul_lt_mul_of_pos_right (by omega) (by omega)
    _ ≤ (4 * (text.size + stack.depth + 2)) * (g.size + 2) * (g.size + 2) :=
        Nat.le_mul_of_pos_right _ (by omega)

end Potential

end Scan

/-- A scan ends if its runs have fewer steps than are allowed. -/
def ScanCall.Ends (call : ScanCall) : Prop :=
  ∀ states : List Scan,
    List.IsChain (Scan.Next call.grammar call.ignoreIllegals (Text.ofString call.content))
      (Scan.initial call.grammar call.stack :: states) →
    states.length < Scan.fuelFor call.grammar (Text.ofString call.content) call.stack

/-- **Every scan ends**, from whatever modes are open at first. -/
theorem CompiledGrammar.Advances.ends {g : CompiledGrammar} (hg : g.Advances)
    (ignoreIllegals : Bool) (stack : Stack) (content : String) :
    ScanCall.Ends ⟨g, ignoreIllegals, stack, content⟩ := by
  intro states hchain
  obtain ⟨rank, hle, hlt⟩ := hg.exists_rank
  exact (Scan.length_le_potential hg hle hlt hchain).trans_lt (Scan.potential_initial_lt hle stack)

end LexicalModes
