import LexicalModes.Proofs.Nesting

/-!
Tokens that have been emitted stay where they are. Only a text at the end of a stream can still
change, by more text that is joined to it; tokens that end in anything else are `Sealed`, and stand
at the front of whatever is added later. Events that are added in two parts are added one part after
the other, so the tokens of a run can be cut wherever a boundary was emitted.
-/

namespace LexicalModes

/-- The tokens do not end in a text, to which more text would be joined. -/
def Sealed (tokens : List Token) : Prop := ∀ earlier content, tokens ≠ earlier ++ [.text content]

theorem sealed_nil : Sealed [] := by
  intro earlier content heq
  cases earlier <;> cases heq

theorem sealed_snoc {t : Token} (ht : ∀ content, t ≠ .text content) (tokens : List Token) :
    Sealed (tokens ++ [t]) := by
  intro earlier content heq
  exact ht content (List.singleton_inj.1 (List.append_inj_right' heq rfl))

/-- Begins of regions are sealed, also when there are none. -/
theorem sealed_begins (scopes : List Scope) : Sealed (scopes.map Token.begins) := by
  rcases List.eq_nil_or_concat scopes with rfl | ⟨outer, scope, rfl⟩
  · exact sealed_nil
  · have hscope : ∀ content, Token.begins scope ≠ .text content := nofun
    rw [List.concat_eq_append, List.map_append]
    exact sealed_snoc hscope _

namespace Stream

variable {s : Stream} {front : List Token}

theorem prefix_pushText (hsealed : Sealed front) (h : front <+: s.toList) (content : String) :
    front <+: (s.pushText content).toList := by
  rcases pushText_cases s content with ⟨-, hnext⟩ | ⟨earlier, before, hs, hnext⟩ | hnext
  · rw [hnext]
    exact h
  · rw [hs, List.prefix_concat_iff] at h
    rcases h with h | h
    · exact absurd h (hsealed earlier before)
    · rw [hnext]
      exact h.trans (List.prefix_append _ _)
  · rw [hnext]
    exact h.trans (List.prefix_append _ _)

theorem prefix_push (h : front <+: s.toList) (t : Token) : front <+: (s.push t).toList := by
  rw [toList_push]
  exact h.trans (List.prefix_append _ _)

theorem prefix_append (h : front <+: s.toList) (tokens : List Token) :
    front <+: (s.append tokens).toList := by
  rw [toList_append]
  exact h.trans (List.prefix_append _ _)

theorem prefix_appendJoined (hsealed : Sealed front) (h : front <+: s.toList)
    (tokens : List Token) : front <+: (s.appendJoined tokens).toList := by
  induction tokens generalizing s with
  | nil => exact h
  | cons t rest ih =>
      apply ih
      cases t with
      | text content => exact prefix_pushText hsealed h content
      | keyword className content => exact prefix_push h _
      | begins scope => exact prefix_push h _
      | ends scope => exact prefix_push h _

end Stream

namespace Emission

variable {g : CompiledGrammar} {embedding : Embedding} {front : List Token}

theorem prefix_addEmbedded {e : Emission} (hsealed : Sealed front) (h : front <+: e.stream.toList)
    (container : CompiledMode) (result : Highlighted) :
    front <+: (e.addEmbedded container result).stream.toList := by
  rw [stream_addEmbedded]
  cases result.language with
  | some name => exact Stream.prefix_push (Stream.prefix_append (Stream.prefix_push h _) _) _
  | none => exact Stream.prefix_appendJoined hsealed h _

/-- Whatever an event stands for is added behind what is sealed. -/
theorem prefix_add {e next : Emission} {event : Event} (hsealed : Sealed front)
    (h : front <+: e.stream.toList) (hadd : (e.add g embedding event).value = .ok next) :
    front <+: next.stream.toList := by
  cases add_eq_ok hadd with
  | begins className => exact Stream.prefix_push h _
  | ends className => exact Stream.prefix_push h _
  | score weight => exact h
  | classified hsub hclassify =>
      obtain ⟨leaves, rfl, -, -⟩ := classify_ok hclassify
      exact Stream.prefix_appendJoined hsealed h leaves
  | unregistered hsub hnone => exact Stream.prefix_pushText hsealed h _
  | fixed hsub hresult =>
      rw [← stream_keepThread] at h
      exact prefix_addEmbedded hsealed h _ _
  | auto hsub hresult => exact prefix_addEmbedded hsealed h _ _

theorem prefix_addAll {e last : Emission} {events : List Event} (hsealed : Sealed front)
    (h : front <+: e.stream.toList) (hlast : (addAll g embedding e events).value = .ok last) :
    front <+: last.stream.toList := by
  induction events generalizing e with
  | nil =>
      cases hlast
      exact h
  | cons event rest ih =>
      obtain ⟨next, hnext, hrest⟩ := addAll_cons_eq_ok hlast
      exact ih (prefix_add hsealed h hnext) hrest

/-- Events are added in two parts, the second to what the first leads to. -/
theorem value_addAll_append (e : Emission) (earlier later : List Event) :
    (addAll g embedding e (earlier ++ later)).value =
      (addAll g embedding e earlier).value >>= fun middle =>
        (addAll g embedding middle later).value := by
  induction earlier generalizing e with
  | nil => rfl
  | cons event rest ih =>
      rw [List.cons_append, addAll, addAll, Traced.value_bind, Traced.value_bind, bind_assoc]
      exact bind_congr fun next => ih next

theorem addAll_append_eq_ok {e last : Emission} {earlier later : List Event} :
    (addAll g embedding e (earlier ++ later)).value = .ok last ↔
      ∃ middle, (addAll g embedding e earlier).value = .ok middle ∧
        (addAll g embedding middle later).value = .ok last := by
  rw [value_addAll_append, bind_eq_ok]

/-- Boundaries of regions are added as they are. -/
theorem stream_addAll_boundaries {e last : Emission} {kind : String → Event}
    {token : String → Token} (hkind : ∀ className (e : Emission),
      (e.add g embedding (kind className)).value =
        .ok { e with stream := e.stream.push (token className) }) {classes : List String}
    (hlast : (addAll g embedding e (classes.map kind)).value = .ok last) :
    last.stream.toList = e.stream.toList ++ classes.map token := by
  induction classes generalizing e with
  | nil =>
      cases hlast
      exact (List.append_nil _).symm
  | cons className rest ih =>
      rw [List.map_cons] at hlast
      obtain ⟨next, hnext, hrest⟩ := addAll_cons_eq_ok hlast
      rw [hkind] at hnext
      cases hnext
      rw [ih hrest, Stream.toList_push, List.append_assoc]
      rfl

end Emission

end LexicalModes
