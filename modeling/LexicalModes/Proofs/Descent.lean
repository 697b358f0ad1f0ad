import LexicalModes.Proofs.Copies
import LexicalModes.Proofs.Reachability

/-!
Compiling ends when no mode that is copied for every place contains itself through such modes. The
slots that are taken are no measure of what is left to do, since every call may take new ones. What
a call uses up is a shared mode that has not begun, of which there are finitely many; or, when it is
the call of a copy and leads to a copy inside it, a step down in the rank of the copied modes. Both
make up a `Call.potential` that goes down from every call to those that it leads to.
-/

namespace LexicalModes

variable {g : Grammar} {ci : Bool}

/-- The mode of this origin has begun to be compiled. -/
def Begun (slots : Array Slot) (origins : List Origin) (p : Origin) : Prop :=
  ∃ index s, origins[index]? = some p ∧ shellAt slots index = some s

theorem Begun.mono {slots slots' : Array Slot} {origins origins' : List Origin} {p : Origin}
    (h : Begun slots origins p) (hgrows : Grows slots origins slots' origins') :
    Begun slots' origins' p := by
  obtain ⟨index, s, hp, hs⟩ := h
  exact ⟨index, s, getElem?_of_isPrefix hgrows.origins hp, hgrows.shells hs⟩

/-- A mode whose slot is open has not begun. -/
theorem Placed.not_begun {underWay : List ModeIndex} {w : Workbench} {origins : List Origin}
    (h : Placed g ci underWay w.slots origins) {index : ModeIndex} {p : Origin}
    (hp : origins[index]? = some p) (hopen : w.Open index) : ¬Begun w.slots origins p := by
  rintro ⟨other, s, hother, hs⟩
  rw [index_unique h.nodup hother hp] at hs
  exact Workbench.not_open_of_shellAt hs hopen

/-! ### How many slots -/

/-- There are no more slots than origins that are as many copies deep as there are declarations. -/
theorem Grammar.CopyRank.size_le {rank : ModeId → Nat} (hrank : g.CopyRank rank)
    {underWay : List ModeIndex} {slots : Array Slot} {origins : List Origin}
    (h : Placed g ci underWay slots origins) : slots.size ≤ g.slotBound := by
  have howners : ∀ {p place}, .copy p place ∈ origins → p ∈ origins := by
    intro p place hmem
    obtain ⟨index, -, hp, -⟩ := h.owners hmem
    exact List.mem_of_getElem? hp
  have hsubset : origins ⊆ g.unfoldings g.size := by
    intro p hp
    obtain ⟨mode, hsource⟩ := h.exists_source hp
    exact Origin.mem_unfoldings hsource
      (Origin.depth_le hrank howners h.copies hp)
  calc slots.size
      = origins.length := h.size.symm
    _ ≤ (g.unfoldings g.size).length := (h.nodup.subperm hsubset).length_le
    _ ≤ g.slotBound := Grammar.length_unfoldings_le g.size

/-! ### How deep -/

open Classical in
/-- The shared modes that have not begun. -/
noncomputable def unbegun (g : Grammar) (slots : Array Slot) (origins : List Origin) :
    Finset Origin :=
  g.sharedOrigins.toFinset.filter fun p => ¬Begun slots origins p

theorem mem_unbegun {slots : Array Slot} {origins : List Origin} {p : Origin} :
    p ∈ unbegun g slots origins ↔ p ∈ g.sharedOrigins ∧ ¬Begun slots origins p := by
  simp only [unbegun, Finset.mem_filter, List.mem_toFinset]

theorem unbegun_subset {slots slots' : Array Slot} {origins origins' : List Origin}
    (hgrows : Grows slots origins slots' origins') :
    unbegun g slots' origins' ⊆ unbegun g slots origins := by
  intro p hp
  obtain ⟨hshared, hnot⟩ := mem_unbegun.1 hp
  exact mem_unbegun.2 ⟨hshared, fun hbegun => hnot (hbegun.mono hgrows)⟩

theorem card_unbegun_le (slots : Array Slot) (origins : List Origin) :
    (unbegun g slots origins).card ≤ g.sharedCount := by
  calc (unbegun g slots origins).card
      ≤ g.sharedOrigins.toFinset.card :=
        Finset.card_le_card fun p hp => List.mem_toFinset.2 (mem_unbegun.1 hp).1
    _ ≤ g.sharedOrigins.length := List.toFinset_card_le _
    _ = g.sharedCount := Grammar.length_sharedOrigins

namespace Call

/-- What the calls use up on the way down: the shared modes that have not begun, and the rank of the
copy that is compiled. -/
noncomputable def potential (g : Grammar) (rank : ModeId → Nat) (c : Call) (origins : List Origin)
    (p : Origin) : Nat :=
  (unbegun g c.workbench.slots origins).card * (g.size + 1) + p.rank g rank

variable {c next last : Call} {rank : ModeId → Nat} {origins : List Origin} {p : Origin}

theorem potential_lt_of_copyRank (hrank : g.CopyRank rank) :
    c.potential g rank origins p < (g.sharedCount + 1) * (g.size + 1) := by
  have hcard := Nat.mul_le_mul_right (g.size + 1)
    (card_unbegun_le (g := g) c.workbench.slots origins)
  have hle := Origin.rank_le hrank p
  rw [potential, Nat.add_one_mul]
  omega

theorem Leads.open (h : c.Leads g ci next) : c.workbench.Open c.index := by
  cases h with
  | inside hopens => exact ⟨_, hopens.reserved⟩
  | following hopens => exact ⟨_, hopens.reserved⟩

theorem Leads.open_next (h : c.Leads g ci next) : next.workbench.Open next.index := by
  cases h with
  | inside _ _ hopen => exact hopen
  | following _ _ _ _ hopen => exact hopen

/-- **One call** of a shared mode lets it begin, and one of a copy leads to a shared mode, or to a
copy of lower rank. -/
theorem At.potential_lt (hrank : g.CopyRank rank) (h : c.At g ci origins p)
    (hleads : c.Leads g ci next) :
    ∃ origins' q, next.At g ci origins' q ∧
      next.potential g rank origins' q < c.potential g rank origins p := by
  obtain ⟨origins', q, hat, hgrows, ⟨s, hs⟩, hedge⟩ := h.leads hleads
  refine ⟨origins', q, hat, ?_⟩
  obtain ⟨underWay, hsound⟩ := h.sound
  obtain ⟨underWay', hsound'⟩ := hat.sound
  have hbegun : Begun next.workbench.slots origins' p :=
    ⟨c.index, s, getElem?_of_isPrefix hgrows.origins h.origin, hs⟩
  have hsubset := unbegun_subset (g := g) hgrows
  by_cases hshared : ∀ owner place, p ≠ .copy owner place
  · -- That a shared mode begins pays for any rank.
    obtain ⟨mode, hsource⟩ := hsound.placed.exists_source (List.mem_of_getElem? h.origin)
    have hmem : p ∈ unbegun g c.workbench.slots origins := mem_unbegun.2
      ⟨Origin.mem_sharedOrigins hsource hshared, hsound.placed.not_begun h.origin hleads.open⟩
    have hcard : (unbegun g next.workbench.slots origins').card <
        (unbegun g c.workbench.slots origins).card :=
      Finset.card_lt_card ((Finset.ssubset_iff_of_subset hsubset).2
        ⟨p, hmem, fun hunbegun => (mem_unbegun.1 hunbegun).2 hbegun⟩)
    have hle := Origin.rank_le hrank q
    have hpaid := Nat.mul_le_mul_right (g.size + 1) (Nat.succ_le_of_lt hcard)
    rw [Nat.succ_mul] at hpaid
    rw [potential, potential]
    omega
  · -- A copy is not called again, so it leads to what has a lower rank.
    push Not at hshared
    obtain ⟨owner, place, rfl⟩ := hshared
    have howner := hsound.placed.copies (List.mem_of_getElem? h.origin)
    have hpos := Origin.rank_pos hrank howner
    have hlower : q.rank g rank < (Origin.copy owner place).rank g rank := by
      rcases hedge with hcontents | hfollower
      · rcases Origin.cases_of_mem_contents hcontents with
          rfl | ⟨inner, rfl⟩ | ⟨id, inner, rfl⟩ | ⟨id, rfl, -⟩
        · exact absurd hbegun (hsound'.placed.not_begun hat.origin hleads.open_next)
        · exact Origin.rank_copy_lt hrank howner hcontents
        · exact hpos
        · exact hpos
      · obtain ⟨mode, -, hstarts⟩ := Option.bind_eq_some_iff.1 hfollower
        obtain ⟨id, -, rfl⟩ := Option.map_eq_some_iff.1 hstarts
        exact hpos
    have hcard := Nat.mul_le_mul_right (g.size + 1) (Finset.card_le_card hsubset)
    rw [potential, potential]
    omega

/-- **A chain of calls** is no longer than the potential it starts with. -/
theorem At.chain (hrank : g.CopyRank rank) {n : Nat} (h : c.At g ci origins p)
    (hchain : Chain g ci n c last) :
    ∃ origins' q, last.At g ci origins' q ∧ n ≤ c.potential g rank origins p := by
  induction hchain generalizing origins p with
  | refl c => exact ⟨origins, p, h, Nat.zero_le _⟩
  | step hleads _ ih =>
      obtain ⟨origins₁, q, hnext, hlt⟩ := h.potential_lt hrank hleads
      obtain ⟨origins', r, hlast, hle⟩ := ih hnext
      exact ⟨origins', r, hlast, by omega⟩

end Call

/-! ### The limit -/

/-- With a higher limit a call comes to what it came to before, unless it met the lower one. -/
theorem Workbench.ensure_succ (fuel : Nat) (index : ModeIndex) (parent : Option ModeIndex)
    (w : Workbench) : SameUnless .endless (ensure g ci fuel index parent w)
      (ensure g ci (fuel + 1) index parent w) := by
  induction fuel generalizing index parent w with
  | zero =>
      unfold ensure
      split
      · exact .inl rfl
      · exact .refl _
  | succ fuel ih =>
      rw [ensure, ensure]
      split
      · rename_i mode hreserved
        refine .bind (.refl _) fun inherited => .bind (.refl _) fun shell => ?_
        refine .bind (.refl _) fun expanded => ?_
        refine .bind (.foldlM (fun w child => ih child (some index) w) _ _) fun w => ?_
        cases mode.starts with
        | none => exact .refl _
        | some id => exact .bind (.refl _) fun slot => (ih _ _ _).bind fun w => .refl _
      · exact .refl _

namespace Grammar

theorem compileWithin_succ (g : Grammar) (ci : Bool) (limit : Nat) :
    SameUnless .endless (g.compileWithin ci limit) (g.compileWithin ci (limit + 1)) := by
  rw [compileWithin_eq, compileWithin_eq]
  exact (Workbench.ensure_succ limit _ _ _).bind fun w => .refl _

/-- Where the limit is not met, a higher one makes no difference. -/
theorem compileWithin_of_le {limit higher : Nat} (hle : limit ≤ higher)
    (hends : g.compileWithin ci limit ≠ .error .endless) :
    g.compileWithin ci higher = g.compileWithin ci limit := by
  induction higher, hle using Nat.le_induction with
  | base => rfl
  | succ higher _ ih =>
      rcases g.compileWithin_succ ci higher with hendless | hsame
      · rw [ih] at hendless
        exact absurd hendless hends
      · rw [hsame, ih]

/-- **Compiling ends** if no mode that ends with its parent and has no variants contains itself
through such modes, whatever else contains what. No chain of calls is as long as the limit, none of
its calls finds more slots than there can be, and a higher limit, or none, makes no difference. -/
theorem compiling_ends (hacyclic : ∀ id, ¬Relation.TransGen g.CopiesInto id id) (ci : Bool) :
    (∀ n call, Call.Chain g ci n g.firstCall call →
      n < g.depthBound ∧ call.workbench.slots.size ≤ g.slotBound) ∧
    g.compile ci ≠ .error .endless ∧
    (∀ limit, g.depthBound ≤ limit → g.compileWithin ci limit = g.compile ci) ∧
    ∀ compiled, g.compile ci = .ok compiled → compiled.size ≤ g.slotBound := by
  obtain ⟨rank, hrank⟩ := exists_copyRank hacyclic
  have hchain : ∀ n call, Call.Chain g ci n g.firstCall call →
      n < g.depthBound ∧ call.workbench.slots.size ≤ g.slotBound := by
    intro n call hchain
    obtain ⟨origins, p, hat, hle⟩ := (g.firstCall_at ci).chain hrank hchain
    obtain ⟨underWay, hsound⟩ := hat.sound
    refine ⟨?_, hrank.size_le hsound.placed⟩
    rw [depthBound_eq]
    exact Nat.lt_succ_of_lt (hle.trans_lt (Call.potential_lt_of_copyRank hrank))
  have hends : g.compile ci ≠ .error .endless := by
    intro herror
    rcases (g.firstCall_at ci).error_of_run (run_eq_error_of_compileWithin herror) with
      hgrammar | ⟨-, last, hlimit, -⟩
    · exact hgrammar
    · exact Nat.lt_irrefl _ (hchain _ last hlimit).1
  refine ⟨hchain, hends, fun limit hle => compileWithin_of_le hle hends, ?_⟩
  intro compiled hok
  obtain ⟨-, origins, hplaced, -⟩ := placed_of_compile hok
  have hsize := hrank.size_le hplaced
  rwa [Array.size_map] at hsize

/-! ### A sample -/

/-- Modes that are copied contain only later ones that are copied. -/
def CopiesUpward (g : Grammar) : Prop :=
  ∀ outer < g.size, ∀ inner < g.size, g.CopiesInto outer inner → outer < inner

instance (g : Grammar) : Decidable g.CopiesUpward :=
  inferInstanceAs (Decidable (∀ outer < g.size, ∀ inner < g.size,
    g.CopiesInto outer inner → outer < inner))

theorem CopiesUpward.acyclic (h : g.CopiesUpward) (id : ModeId) :
    ¬Relation.TransGen g.CopiesInto id id :=
  not_transGen_self (· < ·)
    (fun hcopies => h _ hcopies.1.lt_size _ hcopies.2.1.lt_size hcopies) id

/-- A grammar with cycles of every other kind: through modes themselves, shared modes, variants and
modes that follow. -/
def sampleCycles : Grammar :=
  ⟨#[{ contains := [.mode 1], lexemes := some "z" },
    { beginPattern := some "if", endPattern := some "fi", lexemes := some "z",
      contains := [.this, .mode 2, .mode 0], starts := some 1 },
    { beginPattern := some "do", lexemes := some "z", contains := [.this, .mode 3],
      flags := { endsWithParent := true } },
    { beginPattern := some "let", lexemes := some "z", contains := [.mode 4], starts := some 2,
      flags := { endsWithParent := true } },
    { beginPattern := some "od", lexemes := some "z", contains := [.mode 3, .mode 1],
      variants := [{}, { contains := [.this] }], flags := { endsWithParent := true } }], by decide⟩

theorem compiling_ends_sample :
    (∀ n call, Call.Chain sampleCycles false n sampleCycles.firstCall call →
      n < sampleCycles.depthBound ∧ call.workbench.slots.size ≤ sampleCycles.slotBound) ∧
    ∃ compiled, sampleCycles.compile false = .ok compiled ∧
      sampleCycles.compileWithin false 1000 = .ok compiled := by
  have hupward : sampleCycles.CopiesUpward := by decide +kernel
  obtain ⟨hchain, -, hlimit, -⟩ := compiling_ends hupward.acyclic false
  obtain ⟨compiled, hok⟩ := exists_of_isOk
    (show (sampleCycles.compile false).isOk = true by decide +kernel)
  have hbound : sampleCycles.depthBound ≤ 1000 := by decide +kernel
  exact ⟨hchain, compiled, hok, (hlimit 1000 hbound).trans hok⟩

/-- Two modes that are copied and contain each other. -/
example : compile ⟨#[{ contains := [.mode 1], lexemes := some "z" },
    { beginPattern := some "if", lexemes := some "z", contains := [.mode 2],
      flags := { endsWithParent := true } },
    { beginPattern := some "do", lexemes := some "z", contains := [.mode 1],
      flags := { endsWithParent := true } }], by decide⟩ false = .error .endless :=
  eq_error_of_match (by decide +kernel)

end Grammar

end LexicalModes
