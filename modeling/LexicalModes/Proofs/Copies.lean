import Mathlib.Algebra.Order.BigOperators.Group.List
import LexicalModes.Proofs.Inheritance
import LexicalModes.Proofs.Progress

/-!
Modes that are copied for every place they are contained in: those that end with their parent and
have no variants. All other modes are shared, and there are as many of them as declarations and
variants (`Grammar.sharedOrigins`). When a rank of the declarations goes down from copied modes to
copied modes inside them, it goes down from a copy to the copies inside it (`Origin.rank_copy_lt`).
So no copy is more than as many copies deep as there are declarations, and the origins of such a
depth make up a finite list (`Origin.mem_unfoldings`).
-/

namespace LexicalModes

namespace Grammar

variable (g : Grammar)

/-- The mode with this number gets a copy for every place it is contained in. -/
def Copied (id : ModeId) : Prop :=
  ∃ mode, g.get? id = some mode ∧ mode.flags.endsWithParent = true ∧ mode.variants = []

/-- Both modes are copied, and the first contains the second. -/
def CopiesInto (outer inner : ModeId) : Prop :=
  g.Copied outer ∧ g.Copied inner ∧ ∃ mode, g.get? outer = some mode ∧ .mode inner ∈ mode.contains

instance (id : ModeId) : Decidable (g.Copied id) :=
  decidable_of_iff
    ((g.get? id).any (fun mode => mode.flags.endsWithParent && mode.variants.isEmpty) = true)
    (by simp [Copied, Option.any_eq_true])

instance (outer inner : ModeId) : Decidable (g.CopiesInto outer inner) :=
  decidable_of_iff
    (g.Copied outer ∧ g.Copied inner ∧
      (g.get? outer).any (fun mode => decide (.mode inner ∈ mode.contains)) = true)
    (by simp [CopiesInto, Option.any_eq_true])

/-- A rank of the modes that are copied, which goes down to those inside them. -/
structure CopyRank (rank : ModeId → Nat) : Prop where
  le : ∀ id, rank id ≤ g.size
  pos : ∀ id, g.Copied id → 0 < rank id
  lt : ∀ {outer inner}, g.CopiesInto outer inner → rank inner < rank outer

/-- Number of declarations and variants. -/
def sharedCount : Nat := (g.modes.toList.map fun mode => mode.variants.length + 1).sum

/-- Number of entries in all lists of contained modes. -/
def entryCount : Nat :=
  ((g.modes.toList.flatMap fun mode => mode :: mode.variants).map (·.contains.length)).sum

/-- The origins of all modes that are not copied: the declarations and their variants. -/
def sharedOrigins : List Origin :=
  g.modes.toList.zipIdx.flatMap fun (mode, id) =>
    .declared id :: (List.range mode.variants.length).map (.variant id)

/-- The origins that are no more copies deep than this. -/
def unfoldings : Nat → List Origin
  | 0 => g.sharedOrigins
  | n + 1 => g.sharedOrigins ++
      (unfoldings n).flatMap fun owner => (List.range g.entryCount).map (.copy owner)

/-- As many slots as compiling may need. -/
def slotBound : Nat := g.sharedCount * (g.entryCount + 1) ^ g.size

variable {g}

theorem Copied.lt_size {id : ModeId} (h : g.Copied id) : id < g.size := by
  obtain ⟨mode, hmode, -⟩ := h
  exact (Array.getElem?_eq_some_iff.1 hmode).1

theorem exists_copyRank (hacyclic : ∀ id, ¬Relation.TransGen g.CopiesInto id id) :
    ∃ rank, g.CopyRank rank := by
  obtain ⟨rank, hle, hpos, hlt⟩ := exists_rank (Finset.range g.size)
    (fun hcopies => Finset.mem_range.2 hcopies.1.lt_size) hacyclic
  rw [Finset.card_range] at hle
  exact ⟨rank, hle, fun id hid => hpos id (Finset.mem_range.2 hid.lt_size), hlt⟩

theorem length_sharedOrigins : g.sharedOrigins.length = g.sharedCount := by
  have hlength : ∀ (modes : List Mode) (start : Nat),
      ((modes.zipIdx start).flatMap fun (mode, id) =>
        Origin.declared id :: (List.range mode.variants.length).map (.variant id)).length =
      (modes.map fun mode => mode.variants.length + 1).sum := by
    intro modes
    induction modes with
    | nil => exact fun _ => rfl
    | cons mode rest ih =>
        intro start
        rw [List.zipIdx_cons, List.flatMap_cons, List.length_append, ih, List.map_cons,
          List.sum_cons, List.length_cons, List.length_map, List.length_range]
  exact hlength _ 0

theorem depthBound_eq (g : Grammar) : g.depthBound = (g.sharedCount + 1) * (g.size + 1) + 1 := by
  have hfold : ∀ (modes : List Mode) (n : Nat),
      modes.foldl (fun n mode => n + 1 + mode.variants.length) n =
        n + (modes.map fun mode => mode.variants.length + 1).sum := by
    intro modes
    induction modes with
    | nil => exact fun _ => rfl
    | cons mode rest ih =>
        intro n
        rw [List.foldl_cons, ih, List.map_cons, List.sum_cons]
        omega
  rw [depthBound, ← Array.foldl_toList, hfold, Nat.zero_add, sharedCount]

theorem declared_mem_sharedOrigins {id : ModeId} {mode : Mode} (hmode : g.get? id = some mode) :
    .declared id ∈ g.sharedOrigins := by
  refine List.mem_flatMap.2 ⟨(mode, id), ?_, List.mem_cons_self⟩
  rw [List.mk_mem_zipIdx_iff_getElem?, Array.getElem?_toList]
  exact hmode

theorem variant_mem_sharedOrigins {id : ModeId} {mode : Mode} {place : Nat}
    (hmode : g.get? id = some mode) (hplace : place < mode.variants.length) :
    .variant id place ∈ g.sharedOrigins := by
  refine List.mem_flatMap.2 ⟨(mode, id), ?_, List.mem_cons_of_mem _ ?_⟩
  · rw [List.mk_mem_zipIdx_iff_getElem?, Array.getElem?_toList]
    exact hmode
  · exact List.mem_map_of_mem (List.mem_range.2 hplace)

theorem length_unfoldings_le (n : Nat) :
    (g.unfoldings n).length ≤ g.sharedCount * (g.entryCount + 1) ^ n := by
  induction n with
  | zero => rw [unfoldings, length_sharedOrigins, Nat.pow_zero, Nat.mul_one]
  | succ n ih =>
      have hcopies : ((g.unfoldings n).flatMap fun owner =>
          (List.range g.entryCount).map (Origin.copy owner)).length =
            (g.unfoldings n).length * g.entryCount := by
        simp [List.length_flatMap, Nat.mul_comm]
      have hpos : 1 ≤ (g.entryCount + 1) ^ n := Nat.one_le_pow _ _ (Nat.succ_pos _)
      calc (g.unfoldings (n + 1)).length
          = g.sharedCount + (g.unfoldings n).length * g.entryCount := by
            rw [unfoldings, List.length_append, length_sharedOrigins, hcopies]
        _ ≤ g.sharedCount * (g.entryCount + 1) ^ n +
              g.sharedCount * (g.entryCount + 1) ^ n * g.entryCount :=
            Nat.add_le_add (Nat.le_mul_of_pos_right _ hpos) (Nat.mul_le_mul_right _ ih)
        _ = g.sharedCount * (g.entryCount + 1) ^ (n + 1) := by ring

/-- No list of contained modes is longer than all of them together. -/
theorem length_contains_le {p : Origin} {mode : Mode} (hsource : p.source g = some mode) :
    mode.contains.length ≤ g.entryCount := by
  have hle : ∀ {base other : Mode} {id : ModeId}, g.get? id = some base →
      other ∈ base :: base.variants → other.contains.length ≤ g.entryCount := by
    intro base other id hbase hother
    refine List.le_sum_of_mem (List.mem_map_of_mem (List.mem_flatMap.2 ⟨base, ?_, hother⟩))
    exact List.mem_of_getElem? ((Array.getElem?_toList).trans hbase)
  rcases Origin.source_cases hsource with ⟨id, hid⟩ | ⟨id, base, variant, hvariant, hid, rfl⟩
  · exact hle hid List.mem_cons_self
  · cases hcontains : variant.contains.isEmpty with
    | true =>
        simpa [Mode.overlay, hcontains] using hle hid List.mem_cons_self
    | false =>
        simpa [Mode.overlay, hcontains] using hle hid (List.mem_cons_of_mem _ hvariant)

end Grammar

namespace Origin

/-- How many copies are made of copies to come to this one. -/
def depth : Origin → Nat
  | .declared _ | .variant _ _ => 0
  | .copy owner _ => owner.depth + 1

/-- The number of the mode that a copy is a copy of. -/
def copied? (g : Grammar) : Origin → Option ModeId
  | .declared _ | .variant _ _ => none
  | .copy owner place => (owner.source g).bind fun mode =>
      match mode.contains[place]? with
      | some (.mode id) => some id
      | _ => none

/-- A copy has the rank of the mode that it is a copy of; other modes have none. -/
def rank (g : Grammar) (rank : ModeId → Nat) (p : Origin) : Nat := ((p.copied? g).map rank).getD 0

variable {g : Grammar} {p owner : Origin} {place : Nat}

theorem copy_ne_owner (owner : Origin) (place : Nat) : Origin.copy owner place ≠ owner := by
  intro heq
  have hdepth := congrArg depth heq
  rw [depth] at hdepth
  omega

/-- A copy is for an entry of its owner with the number of a mode that is copied. -/
theorem exists_copied (h : .copy owner place ∈ owner.contents g) :
    ∃ mode id, owner.source g = some mode ∧ mode.contains[place]? = some (.mode id) ∧
      g.Copied id ∧ copied? g (.copy owner place) = some id := by
  obtain ⟨mode, place', entry, hsource, hentry, hmem⟩ := exists_standsFor_of_mem_contents h
  cases entry with
  | this => exact absurd (List.mem_singleton.1 hmem) (copy_ne_owner owner place)
  | mode id =>
      simp only [standsFor] at hmem
      split at hmem
      · cases List.mem_singleton.1 hmem
      · rename_i inner hinner
        split at hmem
        · simp at hmem
        · rename_i hvariants
          split at hmem
          · rename_i hparent
            obtain ⟨-, rfl⟩ := Origin.copy.inj (List.mem_singleton.1 hmem)
            refine ⟨mode, id, hsource, hentry, ⟨inner, hinner, hparent, ?_⟩, ?_⟩
            · simpa using hvariants
            · simp [copied?, hsource, hentry]
          · cases List.mem_singleton.1 hmem

/-- The source of a copy is the mode that it is a copy of. -/
theorem source_copy {id : ModeId} (h : copied? g (.copy owner place) = some id) :
    source g (.copy owner place) = g.get? id := by
  rw [copied?] at h
  obtain ⟨mode, hsource, hid⟩ := Option.bind_eq_some_iff.1 h
  have hentry : mode.contains[place]? = some (.mode id) := by
    split at hid
    · rename_i other hother
      rw [hother, Option.some.inj hid]
    · cases hid
  simp [source, hsource, hentry]

section Rank

variable {rank : ModeId → Nat} (hrank : g.CopyRank rank)

include hrank

theorem rank_le (p : Origin) : p.rank g rank ≤ g.size := by
  rw [Origin.rank]
  cases p.copied? g with
  | none => exact Nat.zero_le _
  | some id => exact hrank.le id

theorem rank_pos (h : .copy owner place ∈ owner.contents g) :
    0 < (Origin.copy owner place).rank g rank := by
  obtain ⟨mode, id, -, -, hcopied, heq⟩ := exists_copied h
  rw [Origin.rank, heq]
  exact hrank.pos id hcopied

/-- **Copies inside copies.** The rank goes down from a copy to the copies inside it. -/
theorem rank_copy_lt {outer : Nat} (howner : .copy owner outer ∈ owner.contents g)
    (h : .copy (.copy owner outer) place ∈ (Origin.copy owner outer).contents g) :
    (Origin.copy (.copy owner outer) place).rank g rank <
      (Origin.copy owner outer).rank g rank := by
  obtain ⟨-, outerId, -, -, houter, houterEq⟩ := exists_copied howner
  obtain ⟨mode, id, hsource, hentry, hinner, heq⟩ := exists_copied h
  rw [source_copy houterEq] at hsource
  rw [Origin.rank, heq, Origin.rank, houterEq]
  exact hrank.lt ⟨houter, hinner, mode, hsource, List.mem_of_getElem? hentry⟩

/-- Nothing is more copies deep than there are declarations, if every copy on the way is inside its
owner. -/
theorem depth_le {origins : List Origin}
    (howners : ∀ {p place}, .copy p place ∈ origins → p ∈ origins)
    (hcopies : ∀ {p place}, .copy p place ∈ origins → Origin.copy p place ∈ p.contents g)
    (hp : p ∈ origins) : p.depth ≤ g.size := by
  -- The outermost copy has a rank like any other, and then it goes down with every copy.
  have hsum : ∀ {p}, p ∈ origins → p.depth + p.rank g rank ≤ g.size + 1 := by
    intro p
    induction p with
    | declared id => exact fun _ => Nat.zero_le _
    | variant id place => exact fun _ => Nat.zero_le _
    | copy owner place ih =>
        intro hmem
        have howner := ih (howners hmem)
        have hle := rank_le hrank (.copy owner place)
        cases owner with
        | declared id =>
            rw [depth, depth]
            omega
        | variant id outer =>
            rw [depth, depth]
            omega
        | copy owner outer =>
            have hlower := rank_copy_lt hrank (hcopies (howners hmem)) (hcopies hmem)
            rw [depth]
            omega
  cases p with
  | declared id => exact Nat.zero_le _
  | variant id place => exact Nat.zero_le _
  | copy owner place =>
      have hpos := rank_pos hrank (hcopies hp)
      have hbound := hsum hp
      omega

end Rank

theorem mem_sharedOrigins {mode : Mode} (hsource : p.source g = some mode)
    (hshared : ∀ owner place, p ≠ .copy owner place) : p ∈ g.sharedOrigins := by
  cases p with
  | declared id => exact Grammar.declared_mem_sharedOrigins hsource
  | variant id place =>
      obtain ⟨base, hbase, hsource⟩ := Option.bind_eq_some_iff.1 hsource
      obtain ⟨variant, hvariant, -⟩ := Option.bind_eq_some_iff.1 hsource
      exact Grammar.variant_mem_sharedOrigins hbase (List.getElem?_eq_some_iff.1 hvariant).1
  | copy owner place => exact absurd rfl (hshared owner place)

/-- An origin with a mode, no more copies deep than `n`, is among those of that depth. -/
theorem mem_unfoldings {n : Nat} {mode : Mode} (hsource : p.source g = some mode)
    (hdepth : p.depth ≤ n) : p ∈ g.unfoldings n := by
  have hshared : ∀ n, g.sharedOrigins ⊆ g.unfoldings n := by
    intro n
    cases n with
    | zero => exact List.Subset.refl _
    | succ n => exact List.subset_append_left _ _
  induction p generalizing n mode with
  | declared id => exact hshared n (mem_sharedOrigins hsource nofun)
  | variant id place => exact hshared n (mem_sharedOrigins hsource nofun)
  | copy owner place ih =>
      obtain ⟨base, hbase, hsource⟩ := Option.bind_eq_some_iff.1 hsource
      have hplace : place < g.entryCount := by
        refine Nat.lt_of_lt_of_le ?_ (Grammar.length_contains_le hbase)
        by_contra hge
        rw [List.getElem?_eq_none (Nat.le_of_not_lt hge)] at hsource
        cases hsource
      obtain ⟨m, rfl⟩ := Nat.exists_eq_add_one_of_ne_zero (Nat.ne_zero_of_lt hdepth)
      have howner : owner ∈ g.unfoldings m := ih hbase (Nat.le_of_succ_le_succ hdepth)
      refine List.mem_append_right _ (List.mem_flatMap.2 ⟨owner, howner, ?_⟩)
      exact List.mem_map_of_mem (List.mem_range.2 hplace)

end Origin

end LexicalModes
