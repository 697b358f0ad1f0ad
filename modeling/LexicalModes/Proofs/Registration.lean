import LexicalModes.Registry
import Mathlib.Data.List.Induction

/-!
What a registry tells of its history. Languages are kept under their lower-cased names and aliases
lead to such names, so a registry that came about by registrations, with languages used in between,
holds under every name the language registered last under it, and for every alias the name of the
language that listed it last (`Registry.Records`). Each change keeps that up, and lookups and the
list of languages are read off it.
-/

namespace LexicalModes

open LexicalModes.Unicode

namespace OrderedMap

variable {α β : Type}

theorem lookup_cons_eq_ite (name key : String) (value : α) (rest : List (String × α)) :
    List.lookup key ((name, value) :: rest) =
      if key = name then some value else rest.lookup key := by
  rw [List.lookup_cons]
  by_cases hkey : key = name
  · rw [if_pos hkey, beq_iff_eq.2 hkey]
  · rw [if_neg hkey, beq_false_of_ne hkey]

theorem lookup_insertEntry (name key : String) (value : α) (entries : List (String × α)) :
    (insertEntry name value entries).lookup key =
      if key = name then some value else entries.lookup key := by
  induction entries with
  | nil => exact lookup_cons_eq_ite name key value []
  | cons e rest ih =>
      obtain ⟨other, old⟩ := e
      rw [insertEntry]
      by_cases hlt : name < other
      · rw [if_pos hlt]
        exact lookup_cons_eq_ite name key value _
      · rw [if_neg hlt]
        by_cases hname : name = other
        · -- The value takes the place of the old one.
          subst hname
          rw [if_pos rfl, lookup_cons_eq_ite, lookup_cons_eq_ite]
          by_cases hkey : key = name
          · rw [if_pos hkey, if_pos hkey]
          · rw [if_neg hkey, if_neg hkey, if_neg hkey]
        · rw [if_neg hname, lookup_cons_eq_ite, lookup_cons_eq_ite, ih]
          by_cases hother : key = other
          · have hkey : key ≠ name := fun hkey => hname (hkey.symm.trans hother)
            rw [if_pos hother, if_neg hkey, if_pos hother]
          · rw [if_neg hother, if_neg hother]

/-- The entry put in last is found, and the others are found as before. -/
theorem get?_insert (m : OrderedMap α) (name key : String) (value : α) :
    (m.insert name value).get? key = if key = name then some value else m.get? key :=
  lookup_insertEntry name key value m.entries

theorem get?_map (f : String → α → β) (m : OrderedMap α) (key : String) :
    (m.map f).get? key = (m.get? key).map (f key) := by
  have hentries : ∀ entries : List (String × α),
      (entries.map fun e => (e.1, f e.1 e.2)).lookup key = (entries.lookup key).map (f key) := by
    intro entries
    induction entries with
    | nil => rfl
    | cons e rest ih =>
        rw [List.map_cons, lookup_cons_eq_ite, lookup_cons_eq_ite]
        by_cases hkey : key = e.1
        · rw [if_pos hkey, if_pos hkey, hkey]
          rfl
        · rw [if_neg hkey, if_neg hkey, ih]
  exact hentries m.entries

/-- The entries are the values that are found under their names. -/
theorem mem_entries_iff {m : OrderedMap α} {name : String} {value : α} :
    (name, value) ∈ m.entries ↔ m.get? name = some value := by
  constructor
  · intro hmem
    obtain ⟨before, after, hentries⟩ := List.append_of_mem hmem
    have hascending := m.ascending
    rw [hentries, List.map_append, List.pairwise_append] at hascending
    refine List.lookup_eq_some_iff.2 ⟨before, after, hentries, fun e he => ?_⟩
    -- What comes before has a lesser name, and so another one.
    have hlt : e.1 < name :=
      hascending.2.2 e.1 (List.mem_map_of_mem he) name (by simp)
    rw [bne_iff_ne]
    rintro rfl
    exact String.lt_irrefl _ hlt
  · intro hfound
    obtain ⟨before, after, hentries, -⟩ := List.lookup_eq_some_iff.1 hfound
    rw [hentries]
    exact List.mem_append_right before List.mem_cons_self

end OrderedMap

/-! ### Histories -/

@[simp] theorem Entry.language_compiled (e : Entry) : e.compiled.language = e.language := by
  rw [compiled]
  split <;> rfl

namespace Registry

/-- What happens to a registry: a language is registered, or those with the given registered names
are used. -/
inductive Change
  | register (language : Language)
  | use (names : List String)

/-- The registry after a change. -/
def change (r : Registry) : Change → Registry
  | .register language => r.register language
  | .use names => r.markUsed names

/-- The registry after changes one after another, from the empty one on. -/
def after (changes : List Change) : Registry := changes.foldl change empty

/-- The language that a change registers. -/
def Change.registers? : Change → Option Language
  | .register language => some language
  | .use _ => none

/-- The languages that changes register, in order. -/
def history (changes : List Change) : List Language := changes.filterMap Change.registers?

/-- The last language of a history with the property. -/
def lastWith (P : Language → Prop) [DecidablePred P] (past : List Language) : Option Language :=
  (past.filter P).getLast?

/-- The language registered last under the name, in lower case. -/
def lastNamed (key : String) : List Language → Option Language :=
  lastWith fun language => lowercase language.name = key

/-- The language registered last with the name, in lower case, among its aliases. -/
def lastListing (key : String) : List Language → Option Language :=
  lastWith fun language => key ∈ language.aliases.map lowercase

section

variable {P : Language → Prop} [DecidablePred P] {past : List Language} {language : Language}

theorem lastWith_concat (P : Language → Prop) [DecidablePred P] (past : List Language)
    (language : Language) :
    lastWith P (past ++ [language]) = if P language then some language else lastWith P past := by
  rw [lastWith, lastWith, List.filter_append]
  by_cases hP : P language
  · rw [if_pos hP, List.filter_cons_of_pos (by simpa using hP), List.filter_nil,
      List.getLast?_concat]
  · rw [if_neg hP, List.filter_cons_of_neg (by simpa using hP), List.filter_nil, List.append_nil]

theorem of_lastWith (h : lastWith P past = some language) : language ∈ past ∧ P language := by
  have hmem := List.mem_filter.1 (List.mem_of_getLast? h)
  exact ⟨hmem.1, of_decide_eq_true hmem.2⟩

theorem exists_lastWith (hmem : language ∈ past) (hP : P language) :
    ∃ last, lastWith P past = some last :=
  ⟨_, List.getLast?_eq_some_getLast
    (List.ne_nil_of_mem (List.mem_filter.2 ⟨hmem, decide_eq_true hP⟩))⟩

theorem exists_lastNamed (hmem : language ∈ past) :
    ∃ last, lastNamed (lowercase language.name) past = some last :=
  exists_lastWith hmem rfl

theorem exists_lastListing (hmem : language ∈ past) {other : String}
    (hother : other ∈ language.aliases) :
    ∃ lister, lastListing (lowercase other) past = some lister :=
  exists_lastWith hmem (List.mem_map_of_mem hother)

end

/-! ### What is kept of a history -/

theorem get?_eq_bind (r : Registry) (name : String) :
    r.get? name =
      (r.resolve? name).bind fun key => (r.languages.get? key).map (·.language) := by
  rw [get?, find?]
  cases r.resolve? name with
  | none => rfl
  | some key => cases hfound : r.languages.get? key <;> simp [hfound]

/-- Under every name the registry holds the language registered last under it, and for every alias
the name of the language that listed it last. -/
structure Records (r : Registry) (past : List Language) : Prop where
  languages : ∀ key, (r.languages.get? key).map (·.language) = lastNamed key past
  aliases : ∀ key,
    r.aliases.lookup key = (lastListing key past).map fun language => lowercase language.name

theorem records_empty : empty.Records [] := ⟨fun _ => rfl, fun _ => rfl⟩

/-- Aliases listed later hide the same ones listed before. -/
theorem lookup_foldl_aliases (target key : String) (listed : List String)
    (known : List (String × String)) :
    (listed.foldl (fun known other => (lowercase other, target) :: known) known).lookup key =
      if key ∈ listed.map lowercase then some target else known.lookup key := by
  induction listed generalizing known with
  | nil => rfl
  | cons other rest ih =>
      rw [List.foldl_cons, ih, List.map_cons]
      by_cases hrest : key ∈ rest.map lowercase
      · rw [if_pos hrest, if_pos (List.mem_cons_of_mem _ hrest)]
      · rw [if_neg hrest, OrderedMap.lookup_cons_eq_ite]
        by_cases hother : key = lowercase other
        · rw [if_pos hother, if_pos (hother ▸ List.mem_cons_self)]
        · rw [if_neg hother, if_neg]
          exact fun hmem => (List.mem_cons.1 hmem).elim hother hrest

namespace Records

variable {r : Registry} {past : List Language} {key : String}

/-- **Registering** a language makes it the last one of its name and the last one to list its
aliases. -/
theorem register (h : r.Records past) (language : Language) :
    (r.register language).Records (past ++ [language]) := by
  constructor
  · intro key
    rw [lastNamed, lastWith_concat, ← lastNamed, ← h.languages, Registry.register,
      OrderedMap.get?_insert]
    by_cases hkey : key = lowercase language.name
    · rw [if_pos hkey, if_pos hkey.symm]
      rfl
    · rw [if_neg hkey, if_neg (Ne.symm hkey)]
  · intro key
    rw [lastListing, lastWith_concat, ← lastListing, Registry.register, lookup_foldl_aliases]
    by_cases hkey : key ∈ language.aliases.map lowercase
    · rw [if_pos hkey, if_pos hkey]
      rfl
    · rw [if_neg hkey, if_neg hkey, h.aliases]

/-- **Using** languages leaves all of them where they are. -/
theorem markUsed (h : r.Records past) (names : List String) :
    (r.markUsed names).Records past := by
  refine ⟨fun key => ?_, h.aliases⟩
  rw [← h.languages, Registry.markUsed, OrderedMap.get?_map, Option.map_map]
  congr 1
  funext e
  rw [Function.comp_apply]
  split
  · exact e.language_compiled
  · rfl

/-- The language found under a name is the one registered last under it; if there is none, the last
alias of that name counts. -/
theorem get?_eq (h : r.Records past) (name : String) :
    r.get? name = (lastNamed (lowercase name) past).or
      ((lastListing (lowercase name) past).bind fun lister =>
        lastNamed (lowercase lister.name) past) := by
  rw [get?_eq_bind, resolve?, ← h.languages]
  cases hfound : r.languages.get? (lowercase name) with
  | some e => simp [hfound]
  | none =>
      rw [if_neg (by simp), h.aliases]
      cases lastListing (lowercase name) past with
      | none => rfl
      | some lister => exact h.languages _

/-- Every alias leads to the name of a registered language. -/
theorem exists_of_alias (h : r.Records past) {target : String}
    (htarget : r.aliases.lookup key = some target) :
    ∃ e, r.languages.get? target = some e ∧ lastNamed target past = some e.language := by
  rw [h.aliases] at htarget
  obtain ⟨lister, hlister, rfl⟩ := Option.map_eq_some_iff.1 htarget
  obtain ⟨last, hnamed⟩ := exists_lastNamed (of_lastWith hlister).1
  obtain ⟨e, he, hlanguage⟩ := Option.map_eq_some_iff.1 ((h.languages _).trans hnamed)
  exact ⟨e, he, hnamed.trans (congrArg some hlanguage.symm)⟩

/-- An alias that a language was registered with is found, whatever was registered since. -/
theorem exists_get?_of_mem_aliases (h : r.Records past) {language : Language}
    (hlanguage : language ∈ past) {other : String} (hother : other ∈ language.aliases) :
    ∃ found ∈ past, r.get? other = some found := by
  rw [h.get?_eq]
  cases hnamed : lastNamed (lowercase other) past with
  | some found => exact ⟨found, (of_lastWith hnamed).1, rfl⟩
  | none =>
      obtain ⟨lister, hlister⟩ := exists_lastListing hlanguage hother
      obtain ⟨found, hfound⟩ := exists_lastNamed (of_lastWith hlister).1
      refine ⟨found, (of_lastWith hfound).1, ?_⟩
      rw [hlister]
      exact hfound

/-- A language is kept under its own name. -/
theorem name_of_mem_entries (h : r.Records past) {e : String × Entry}
    (he : e ∈ r.languages.entries) :
    e.1 = lowercase e.2.language.name ∧ lastNamed e.1 past = some e.2.language := by
  have hnamed : lastNamed e.1 past = some e.2.language := by
    rw [← h.languages, OrderedMap.mem_entries_iff.1 he]
    rfl
  exact ⟨(of_lastWith hnamed).2.symm, hnamed⟩

/-- The languages are listed in the order of their names. -/
theorem pairwise_languages (h : r.Records past) :
    (r.languages.values.map (·.language)).Pairwise fun first second =>
      lowercase first.name < lowercase second.name := by
  have hascending := List.pairwise_map.1 r.languages.ascending
  rw [OrderedMap.values, List.map_map, List.pairwise_map]
  refine hascending.imp_of_mem fun hfirst hsecond hlt => ?_
  rw [(h.name_of_mem_entries hfirst).1, (h.name_of_mem_entries hsecond).1] at hlt
  exact hlt

/-- The languages that are listed are the last ones of their names. -/
theorem mem_languages_iff (h : r.Records past) {language : Language} :
    language ∈ r.languages.values.map (·.language) ↔
      lastNamed (lowercase language.name) past = some language := by
  rw [OrderedMap.values, List.map_map]
  constructor
  · intro hmem
    obtain ⟨e, he, rfl⟩ := List.mem_map.1 hmem
    obtain ⟨hname, hnamed⟩ := h.name_of_mem_entries he
    rwa [hname] at hnamed
  · intro hnamed
    rw [← h.languages] at hnamed
    obtain ⟨e, he, rfl⟩ := Option.map_eq_some_iff.1 hnamed
    exact List.mem_map.2 ⟨_, OrderedMap.mem_entries_iff.2 he, rfl⟩

end Records

/-- **Every registry that comes about by changes** tells of the languages registered by them. -/
theorem records_after (changes : List Change) : (after changes).Records (history changes) := by
  induction changes using List.reverseRecOn with
  | nil => exact records_empty
  | append_singleton changes last ih =>
      rw [after, List.foldl_append, ← after, history, List.filterMap_append, ← history]
      cases last with
      | register language => exact ih.register language
      | use names =>
          rw [List.filterMap_cons_none rfl, List.filterMap_nil, List.append_nil]
          exact ih.markUsed names

end Registry

open Registry

/-- **Lookup follows the history.** After any registrations, with languages used in between, a name
leads to the language registered last under it in lower case; if there is none, to the one now
registered under the name of the language that last listed it as an alias; and else nowhere. Every
alias on record leads to a registered language, and so does every alias that was ever listed. The
languages are listed in ascending order of their lower-cased names, the last one of each name. -/
theorem lookup_follows_history (changes : List Change) :
    (∀ name, (after changes).get? name =
      (lastNamed (lowercase name) (history changes)).or
        ((lastListing (lowercase name) (history changes)).bind fun lister =>
          lastNamed (lowercase lister.name) (history changes))) ∧
    (∀ key target, (after changes).aliases.lookup key = some target →
      ∃ e, (after changes).languages.get? target = some e ∧
        lastNamed target (history changes) = some e.language) ∧
    (∀ language ∈ history changes, ∀ other ∈ language.aliases,
      ∃ found ∈ history changes, (after changes).get? other = some found) ∧
    ((after changes).languages.values.map (·.language)).Pairwise (fun first second =>
      lowercase first.name < lowercase second.name) ∧
    ∀ language, language ∈ (after changes).languages.values.map (·.language) ↔
      lastNamed (lowercase language.name) (history changes) = some language := by
  have hrecords := records_after changes
  refine ⟨hrecords.get?_eq, fun key target htarget => hrecords.exists_of_alias htarget, ?_,
    hrecords.pairwise_languages, fun language => hrecords.mem_languages_iff⟩
  intro language hlanguage other hother
  exact hrecords.exists_get?_of_mem_aliases hlanguage hother

/-- A language of nothing but a name and aliases. -/
def sampleNamed (name : String) (aliases : List String) : Language where
  name := name
  aliases := aliases
  grammar := .ofRoot {}

/-- A language takes over an alias of another one and has the name that was an alias of it; then that
one is replaced. -/
def sampleChanges : List Registry.Change :=
  [.register (sampleNamed "Alpha" ["a", "BETA", "old"]), .use ["alpha"],
    .register (sampleNamed "beta" ["A"]), .register (sampleNamed "ALPHA" ["new"])]

/-- The alias leads to the language that listed it last, the name wins over the alias, and an alias
of a language that was replaced leads to the one in its place. -/
theorem lookup_follows_history_sample :
    (Registry.after sampleChanges).get? "a" = some (sampleNamed "beta" ["A"]) ∧
      (Registry.after sampleChanges).get? "Beta" = some (sampleNamed "beta" ["A"]) ∧
      (Registry.after sampleChanges).get? "old" = some (sampleNamed "ALPHA" ["new"]) ∧
      (Registry.after sampleChanges).get? "gamma" = none ∧
      ∃ found ∈ Registry.history sampleChanges,
        (Registry.after sampleChanges).get? "BETA" = some found := by
  obtain ⟨hget, -, haliases, -, -⟩ := lookup_follows_history sampleChanges
  simp only [hget]
  refine ⟨rfl, rfl, rfl, rfl, ?_⟩
  rw [← hget]
  exact haliases (sampleNamed "Alpha" ["a", "BETA", "old"]) List.mem_cons_self "BETA"
    (by simp [sampleNamed])

end LexicalModes
