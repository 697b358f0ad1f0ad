import LexicalModes.Pattern.Bracket
import LexicalModes.Proofs.PieceStarts

/-!
What the small readers take of the text of a pattern. Numbers, names and the characters of an escape
after its first are inert, so a reader of them leaves a text that comes past inert characters
(`Past`); a class is read up to where counting its brackets says (`readBracket?_movedTo`). Readers
are taken apart with `Yields`: what is read, if anything is, has a property.
-/

namespace LexicalModes

open Pattern

/-! ### Results of readers -/

/-- What is read, if anything is, has the property. -/
def Yields {α : Type} (P : α → Prop) (x : Option α) : Prop := ∀ a, x = some a → P a

namespace Yields

variable {α β : Type} {P : α → Prop} {Q : β → Prop}

theorem none : Yields P .none := fun _ h => nomatch h

theorem some {a : α} (h : P a) : Yields P (.some a) := fun _ heq => Option.some.inj heq ▸ h

theorem of_bind {x : Option α} {f : α → Option β} (hf : ∀ a, x = .some a → Yields Q (f a)) :
    Yields Q (x >>= f) := by
  cases x with
  | none => exact none
  | some a => exact hf a rfl

theorem bind {x : Option α} {f : α → Option β} (hx : Yields P x)
    (hf : ∀ a, P a → Yields Q (f a)) : Yields Q (x >>= f) :=
  of_bind fun a ha => hf a (hx a ha)

theorem map {x : Option α} {f : α → β} (hx : Yields P x) (hf : ∀ a, P a → Q (f a)) :
    Yields Q (x.map f) := by
  cases x with
  | none => exact none
  | some a => exact some (hf a (hx a rfl))

theorem mono {P' : α → Prop} {x : Option α} (hx : Yields P x) (h : ∀ a, P a → P' a) :
    Yields P' x := fun a ha => h a (hx a ha)

end Yields

/-! ### Passing inert characters -/

/-- The second text comes after inert characters of the first. -/
def Past (text rest : List Char) : Prop :=
  ∃ run, text = run ++ rest ∧ ∀ c ∈ run, isInert c = true

namespace Past

theorem refl (text : List Char) : Past text text := ⟨[], rfl, nofun⟩

theorem trans {text middle rest : List Char} (h : Past text middle) (h' : Past middle rest) :
    Past text rest := by
  obtain ⟨run, rfl, hrun⟩ := h
  obtain ⟨run', rfl, hrun'⟩ := h'
  exact ⟨run ++ run', (List.append_assoc _ _ _).symm,
    fun c hc => (List.mem_append.1 hc).elim (hrun c) (hrun' c)⟩

theorem cons {c : Char} {text rest : List Char} (hc : isInert c = true) (h : Past text rest) :
    Past (c :: text) rest := by
  obtain ⟨run, rfl, hrun⟩ := h
  exact ⟨c :: run, rfl, List.forall_mem_cons.2 ⟨hc, hrun⟩⟩

theorem dropWhile {test : Char → Bool} (text : List Char)
    (htest : ∀ c ∈ text.takeWhile test, isInert c = true) : Past text (text.dropWhile test) :=
  ⟨text.takeWhile test, List.takeWhile_append_dropWhile.symm, htest⟩

end Past

theorem Tallies.past {text rest : List Char} {n : Int} (h : Tallies text n)
    (hpast : Past text rest) : Tallies rest n := by
  obtain ⟨run, rfl, hrun⟩ := hpast
  exact (append_plain_iff fun c hc => isPlain_of_isInert (hrun c hc)).1 h

theorem afterClass?_cons {c : Char} (hopening : c ≠ '[') (hclosing : c ≠ ']')
    (hescape : c ≠ '\\') (unclosed : Nat) (rest : List Char) :
    afterClass? unclosed (c :: rest) = afterClass? unclosed rest := by
  rw [afterClass?]
  · exact hclosing
  · exact hopening
  · exact fun d others hc => absurd hc hescape
  · exact fun hc => absurd hc hescape

theorem afterClass?_past {text rest : List Char} (h : Past text rest) (unclosed : Nat) :
    afterClass? unclosed text = afterClass? unclosed rest := by
  obtain ⟨run, rfl, hrun⟩ := h
  induction run with
  | nil => rfl
  | cons c run ih =>
      obtain ⟨hplain, hclosing⟩ := Bool.and_eq_true_iff.1 (hrun c List.mem_cons_self)
      obtain ⟨hopening, -, hescape⟩ := isPlain_iff.1 hplain
      rw [List.cons_append, afterClass?_cons hopening (bne_iff_ne.1 hclosing) hescape,
        ih fun d hd => hrun d (List.mem_cons_of_mem _ hd)]

/-! ### Small readers -/

theorem isInert_of_isNameChar {c : Char} (hc : isNameChar c = true) : isInert c = true :=
  isInert_of_test (by decide +kernel) hc

theorem isInert_of_hexValue? {c : Char} (hc : (hexValue? c).isSome = true) : isInert c = true := by
  have hmarks : (hexValue? '[').isSome = false ∧ (hexValue? ']').isSome = false ∧
      (hexValue? '(').isSome = false ∧ (hexValue? '\\').isSome = false := by decide
  exact @isInert_of_test (fun c => (hexValue? c).isSome) hmarks c hc

theorem past_dropWhile_isDigit (text : List Char) : Past text (text.dropWhile Char.isDigit) :=
  .dropWhile text fun _ hc => isInert_of_isDigit (List.mem_takeWhile_imp hc)

theorem readNat?_rest (text : List Char) :
    Yields (fun found => found.2 = text.dropWhile Char.isDigit) (readNat? text) := by
  unfold readNat?
  split
  · exact .none
  · dsimp only
    split
    · exact .some rfl
    · exact .none

theorem readName?_past (relative : Bool) {closing : Char} (hclosing : isInert closing = true)
    (text : List Char) :
    Yields (fun found => Past text found.2) (readName? relative closing text) := by
  unfold readName?
  split
  rename_i sign body hstart
  have hsign : Past text body := by
    split at hstart
    · split at hstart
      · cases hstart
        exact .cons rfl (.refl _)
      · cases hstart
        exact .refl _
    · cases hstart
      exact .refl _
  dsimp only
  split
  · rename_i c rest hrest
    split
    · rename_i hc
      simp only [Bool.and_eq_true, beq_iff_eq] at hc
      have hname : Past body (c :: rest) := hrest ▸ .dropWhile body fun d hd =>
        isInert_of_isNameChar (List.mem_takeWhile_imp hd)
      exact .some (hsign.trans (hname.trans (.cons (hc.1 ▸ hclosing) (.refl rest))))
    · exact .none
  · exact .none

/-- The second cursor is the first moved past inert characters, with the same flags and groups. -/
structure MovedPast (cursor next : Cursor) : Prop where
  flags : next.flags = cursor.flags
  groups : next.groups = cursor.groups
  past : Past cursor.rest next.rest

theorem MovedPast.moveTo {cursor : Cursor} {rest : List Char} (h : Past cursor.rest rest) :
    MovedPast cursor (cursor.moveTo rest) := ⟨rfl, rfl, h⟩

/-- The second cursor is the first moved to the text, with the same flags and groups. -/
structure MovedTo (cursor : Cursor) (text : List Char) (next : Cursor) : Prop where
  flags : next.flags = cursor.flags
  groups : next.groups = cursor.groups
  rest : next.rest = text

theorem readNamedRef?_movedPast (relative : Bool) {closing : Char}
    (hclosing : isInert closing = true) (cursor : Cursor) :
    Yields (fun found => MovedPast cursor found.2) (readNamedRef? relative closing cursor) := by
  refine (readName?_past relative hclosing cursor.rest).bind ?_
  rintro ⟨name, rest⟩ hpast
  dsimp only
  cases resolveGroup? cursor name with
  | none => exact .none
  | some index => exact .some ⟨rfl, rfl, hpast⟩

theorem readNumberedRef?_rest (cursor : Cursor) :
    Yields (fun found => MovedTo cursor (cursor.rest.dropWhile Char.isDigit) found.2)
      (readNumberedRef? cursor) := by
  refine (readNat?_rest cursor.rest).bind ?_
  rintro ⟨index, rest⟩ hrest
  dsimp only
  split
  · exact .some ⟨rfl, rfl, hrest⟩
  · exact .none

/-- A text of hexadecimal digits has no other characters. -/
theorem isInert_of_hexNumber? {digits : List Char} {n : Nat} (h : hexNumber? digits = some n) :
    ∀ c ∈ digits, isInert c = true := by
  rw [hexNumber?] at h
  generalize 0 = start at h
  induction digits generalizing start with
  | nil => exact nofun
  | cons c digits ih =>
      rw [List.foldlM_cons] at h
      obtain ⟨next, hnext, hrest⟩ := Option.bind_eq_some_iff.1 h
      obtain ⟨value, hvalue, -⟩ := Option.map_eq_some_iff.1 hnext
      exact List.forall_mem_cons.2
        ⟨isInert_of_hexValue? (Option.isSome_of_eq_some hvalue), ih next hrest⟩

theorem eq_of_dropWhile_brace {inner rest : List Char} {d : Char}
    (hrest : inner.dropWhile (· != '\x7d') = d :: rest) : d = '\x7d' := by
  have hbrace := List.head?_dropWhile_not (· != '\x7d') inner
  rw [hrest] at hbrace
  simpa using hbrace

/-- What comes up to the first closing brace, and after it, if all before it is inert. -/
theorem past_of_dropWhile_brace {inner rest : List Char} {d : Char}
    (hrest : inner.dropWhile (· != '\x7d') = d :: rest)
    (hinert : ∀ c ∈ inner.takeWhile (· != '\x7d'), isInert c = true) :
    Past ('\x7b' :: inner) rest := by
  have hinner : Past inner (d :: rest) := hrest ▸ .dropWhile inner hinert
  rw [eq_of_dropWhile_brace hrest] at hinner
  exact .cons (by decide) (hinner.trans (.cons (by decide) (.refl rest)))

theorem readHex?_past (width : Nat) (text : List Char) :
    Yields (fun found => Past text found.2) (readHex? width text) := by
  unfold readHex?
  dsimp only
  split
  · rename_i hdigits
    rw [Bool.and_eq_true, List.all_eq_true] at hdigits
    have hpast : Past text (text.drop width) := ⟨text.take width,
      (List.take_append_drop width text).symm, fun c hc => isInert_of_hexValue? (hdigits.2 c hc)⟩
    exact .of_bind fun _ _ => .of_bind fun _ _ => .some hpast
  · split
    · rename_i inner
      split
      · rename_i d rest hrest
        split
        · exact .none
        · exact .of_bind fun n hn => .of_bind fun _ _ =>
            .some (past_of_dropWhile_brace hrest (isInert_of_hexNumber? hn))
      · exact .none
    · exact .none

theorem propertyText?_past (text : List Char) (hname : plainName text = true) :
    Yields (fun found => Past text found.2) (propertyText? text) := by
  rintro ⟨name, rest⟩ hfound
  rw [plainName, hfound, Option.all_some, List.all_eq_true] at hname
  refine ⟨name, ?_, hname⟩
  unfold propertyText? at hfound
  split at hfound
  · rename_i inner
    split at hfound
    · rename_i d after hafter
      cases hfound
      obtain rfl := eq_of_dropWhile_brace hafter
      calc '\x7b' :: inner
          = '\x7b' :: (inner.takeWhile (· != '\x7d') ++ '\x7d' :: rest) := by
            rw [← hafter, List.takeWhile_append_dropWhile]
        _ = '\x7b' :: inner.takeWhile (· != '\x7d') ++ ['\x7d'] ++ rest := by simp
    · cases hfound
  · cases hfound
    rfl
  · cases hfound

theorem readMarkedRef?_movedPast (cursor : Cursor) :
    Yields (fun found => MovedPast cursor found.2) (readMarkedRef? cursor) := by
  unfold readMarkedRef?
  split
  · rename_i rest hrest
    refine (readNamedRef?_movedPast true (by decide) _).mono fun found h => ?_
    exact ⟨h.flags, h.groups, hrest ▸ .cons (by decide) h.past⟩
  · rename_i rest hrest
    refine (readNamedRef?_movedPast true (by decide) _).mono fun found h => ?_
    exact ⟨h.flags, h.groups, hrest ▸ .cons (by decide) h.past⟩
  · exact .none

/-- An escape takes the character after the backslash and inert ones. -/
theorem readEscape?_movedPast (inClass : Bool) {cursor : Cursor} {c : Char} {rest : List Char}
    (hrest : cursor.rest = c :: rest) (hplain : plainEscape c rest = true) :
    Yields (fun found => MovedPast (cursor.moveTo rest) found.2) (readEscape? inClass cursor) := by
  unfold readEscape?
  rw [hrest]
  dsimp only
  split
  · rename_i hdigit
    refine (readNumberedRef?_rest cursor).map ?_
    rintro ⟨index, next⟩ ⟨hflags, hgroups, hnext⟩
    refine ⟨hflags, hgroups, ?_⟩
    rw [hrest, List.dropWhile_cons_of_pos hdigit] at hnext
    exact hnext ▸ past_dropWhile_isDigit rest
  · split
    · exact (readMarkedRef?_movedPast _).map fun _ h => h
    · split
      · exact .none
      · split
        · exact .some (.moveTo (.refl rest))
        · exact (readHex?_past _ rest).map fun _ h => .moveTo h
        · split
          · rename_i hproperty
            rw [plainEscape, hproperty] at hplain
            exact (propertyText?_past rest hplain).map fun _ h => .moveTo h
          · refine Yields.map (P := fun _ => True) (fun _ _ => trivial) fun _ _ => ?_
            exact .moveTo (.refl rest)

/-! ### Classes -/

theorem readClassRest_movedTo (fuel : Nat) {unclosed : Nat} {cursor : Cursor} {after : List Char}
    (hafter : afterClass? unclosed cursor.rest = some after) :
    Yields (fun found => MovedTo cursor after found.2) (readClassRest fuel unclosed cursor) := by
  induction fuel generalizing unclosed cursor with
  | zero => exact .none
  | succ fuel ih =>
      -- The rest of the class, read by a cursor with the same flags and groups.
      have hnext : ∀ {unclosed : Nat} {next : Cursor} (written : List Char),
          next.flags = cursor.flags → next.groups = cursor.groups →
          afterClass? unclosed next.rest = some after →
          Yields (fun found => MovedTo cursor after found.2)
            (readClassRest fuel unclosed next >>= fun found =>
              some (written ++ found.1, found.2)) := by
        intro unclosed next written hflags hgroups hnext
        refine (ih hnext).bind fun found h => .some ?_
        exact ⟨h.flags.trans hflags, h.groups.trans hgroups, h.rest⟩
      unfold readClassRest
      split
      · exact .none
      · rename_i rest hrest
        cases rest with
        | nil => exact .none
        | cons c rest =>
            rw [hrest, afterClass?] at hafter
            split at hafter
            · rename_i hplain
              refine (readEscape?_movedPast true rfl hplain).bind ?_
              rintro ⟨escape, next⟩ hmoved
              have hpast : Past rest next.rest := hmoved.past
              rw [afterClass?_past hpast] at hafter
              dsimp only
              split
              · exact hnext _ hmoved.flags hmoved.groups hafter
              · exact hnext _ hmoved.flags hmoved.groups hafter
              · exact .none
            · cases hafter
      · rename_i rest hrest
        rw [hrest, afterClass?] at hafter
        exact hnext ['['] rfl rfl hafter
      · rename_i rest hrest
        rw [hrest, afterClass?] at hafter
        split
        · rename_i hlast
          rw [if_pos hlast] at hafter
          cases hafter
          exact .some ⟨rfl, rfl, rfl⟩
        · rename_i hlast
          rw [if_neg hlast] at hafter
          exact hnext [']'] rfl rfl hafter
      · rename_i c rest hescape hopening hclosing hrest
        rw [hrest, afterClass?_cons hopening hclosing hescape] at hafter
        exact hnext [c] rfl rfl hafter

theorem head?_ne_of_forall {c : Char} {text : List Char} (h : ∀ rest, text ≠ c :: rest) :
    text.head? ≠ some c := by
  intro hhead
  obtain ⟨rest, hrest⟩ := List.head?_eq_some_iff.1 hhead
  exact h rest hrest

theorem MovedTo.mark {mark : Char} {cursor : Cursor} {rest : List Char}
    (h : cursor.rest = mark :: rest) :
    MovedTo cursor (dropMark mark cursor.rest) (cursor.moveTo rest) := by
  refine ⟨rfl, rfl, ?_⟩
  rw [h, dropMark, if_pos List.head?_cons]
  rfl

theorem MovedTo.noMark {mark : Char} {cursor : Cursor} (h : ∀ rest, cursor.rest ≠ mark :: rest) :
    MovedTo cursor (dropMark mark cursor.rest) cursor := by
  refine ⟨rfl, rfl, ?_⟩
  rw [dropMark, if_neg (head?_ne_of_forall h)]

theorem readBracket?_movedTo {cursor : Cursor} {after : List Char}
    (hafter : afterBracket? cursor.rest = some after) :
    Yields (fun found => MovedTo cursor after found.2) (readBracket? cursor) := by
  unfold readBracket?
  split
  rename_i caret inner hcaret
  split
  rename_i bracket body hbracket
  have hinner : MovedTo cursor (dropMark '^' cursor.rest) inner := by
    split at hcaret
    · rename_i hrest
      cases hcaret
      exact .mark hrest
    · rename_i hnot
      cases hcaret
      exact .noMark hnot
  have hbody : MovedTo inner (dropMark ']' inner.rest) body := by
    split at hbracket
    · rename_i hrest
      cases hbracket
      exact .mark hrest
    · rename_i hnot
      cases hbracket
      exact .noMark hnot
  rw [afterBracket?, ← hinner.rest, ← hbody.rest] at hafter
  refine (readClassRest_movedTo _ hafter).bind ?_
  rintro ⟨text, last⟩ h
  refine .some ?_
  exact ⟨h.flags.trans (hbody.flags.trans hinner.flags),
    h.groups.trans (hbody.groups.trans hinner.groups), h.rest⟩

end LexicalModes
