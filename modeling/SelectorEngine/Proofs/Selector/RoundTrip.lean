import SelectorEngine.Proofs.Selector.Occurrence
import SelectorEngine.Selector.Json

/-! Writing selectors as JSON and reading them back. Every selector list has a JSON form but one with the
combinator that is never written, and what is read from the form is that list. What is read from any other
JSON has a form too, so that reading and writing settle after one turn. -/
namespace SelectorEngine

theorem Json.optionalText?_ofText? (value : Option String) :
    optionalText? (some (ofText? value)) = some value := by
  cases value <;> rfl

theorem AttributeAction.ofJson_toJson (action : AttributeAction) : ofJson? action.toJson = some action :=
  ofWord_word action

theorem Kind.ne_descendantOrSelf_of_ofJson? {nested : Bool} {json : Json} {kind : Kind}
    (read : ofJson? nested json = some kind) : kind ≠ .combinator .descendantOrSelf := by
  have isListed : kind ∈ all := by
    cases json with
    | text word =>
      exact List.mem_of_find?_eq_some (show all.find? (·.word == word) = some kind from read)
    | number number =>
      simp only [ofJson?, ofNumber?] at read
      split at read
      · split at read
        · cases read
        · exact List.mem_of_getElem? read
      · cases read
    | _ => cases read
  rintro rfl
  exact absurd isListed (by decide)

namespace Token

section Reading

variable {nested : Bool}

private theorem groupOfJson?_of_groupToJson? {group : Group} {items : List Json}
    (each : ∀ token ∈ group, ∀ json, token.toJson? = some json → ofJson? nested json = some token)
    (written : groupToJson? group = some items) : groupOfJson? nested items = some group := by
  induction group generalizing items with
  | nil =>
    obtain rfl := Option.some.inj written
    rfl
  | cons token rest ih =>
    obtain ⟨json, tokenWritten, written⟩ := Option.bind_eq_some_iff.mp written
    obtain ⟨others, restWritten, written⟩ := Option.bind_eq_some_iff.mp written
    obtain rfl := Option.some.inj written
    have tokenRead := each token List.mem_cons_self json tokenWritten
    have restRead := ih (fun token member => each token (List.mem_cons_of_mem _ member)) restWritten
    simp [groupOfJson?, tokenRead, restRead]

private theorem groupsOfJson?_of_groupsToJson? {groups : SelectorList} {items : List Json}
    (each : ∀ group ∈ groups, ∀ token ∈ group, ∀ json, token.toJson? = some json →
      ofJson? nested json = some token)
    (written : groupsToJson? groups = some items) : groupsOfJson? nested items = some groups := by
  induction groups generalizing items with
  | nil =>
    obtain rfl := Option.some.inj written
    rfl
  | cons group rest ih =>
    obtain ⟨tokens, groupWritten, written⟩ := Option.bind_eq_some_iff.mp written
    obtain ⟨others, restWritten, written⟩ := Option.bind_eq_some_iff.mp written
    obtain rfl := Option.some.inj written
    have groupRead := groupOfJson?_of_groupToJson? (each group List.mem_cons_self) groupWritten
    have restRead := ih (fun group listed => each group (List.mem_cons_of_mem _ listed)) restWritten
    simp [groupsOfJson?, groupRead, restRead]

end Reading

/-- A token is read back from its JSON form, at the top of a selector list and inside an argument. -/
theorem ofJson?_of_toJson? {token : Token} {json : Json} (written : token.toJson? = some json)
    (nested : Bool) : ofJson? nested json = some token := by
  induction token using Token.induct generalizing nested json with
  | tag name space =>
    obtain rfl := Option.some.inj written
    simp [ofJson?, Kind.ofJson_word, List.lookup_cons, Json.text?, Json.optionalText?_ofText?]
  | universal space =>
    obtain rfl := Option.some.inj written
    simp [ofJson?, Kind.ofJson_word, List.lookup_cons, Json.optionalText?_ofText?]
  | attr selector =>
    obtain rfl := Option.some.inj written
    simp [ofJson?, Kind.ofJson_word, attributeOfFields?, List.lookup_cons, Json.text?,
      AttributeAction.ofJson_toJson, CaseMode.ofJson_toJson, Json.optionalText?_ofText?]
  | pseudoClass name argument =>
    obtain rfl := Option.some.inj written
    have argumentRead : argumentOfJson? (.ofText? argument) =
        some (argument.elim Argument.none Argument.text) := by
      cases argument <;> rfl
    simp [ofJson?, Kind.ofJson_word, List.lookup_cons, Json.text?, argumentOfFields?, argumentRead]
    cases argument <;> rfl
  | subselect name groups ih =>
    obtain ⟨items, groupsWritten, written⟩ := Option.bind_eq_some_iff.mp written
    obtain rfl := Option.some.inj written
    have groupsRead : groupsOfJson? true items = some groups :=
      groupsOfJson?_of_groupsToJson? (fun group listed token member json tokenWritten =>
        ih group listed token member tokenWritten true) groupsWritten
    simp [ofJson?, Kind.ofJson_word, List.lookup_cons, Json.text?, argumentOfFields?, argumentOfJson?,
      groupsRead, withArgument]
  | pseudoElement name argument =>
    obtain rfl := Option.some.inj written
    simp [ofJson?, Kind.ofJson_word, List.lookup_cons, Json.text?, Json.optionalText?_ofText?]
  | combinator kind =>
    cases kind with
    | descendantOrSelf => cases written
    | _ =>
      obtain rfl := Option.some.inj written
      simp [ofJson?, Kind.ofJson_word, List.lookup_cons]

section Writing

private theorem exists_groupToJson? {group : Group} (each : ∀ token ∈ group, ∃ json, token.toJson? = some json) :
    ∃ items, groupToJson? group = some items := by
  induction group with
  | nil => exact ⟨[], rfl⟩
  | cons token rest ih =>
    obtain ⟨json, tokenWritten⟩ := each token List.mem_cons_self
    obtain ⟨others, restWritten⟩ := ih fun token member => each token (List.mem_cons_of_mem _ member)
    exact ⟨json :: others, by simp [groupToJson?, tokenWritten, restWritten]⟩

private theorem exists_groupsToJson? {groups : SelectorList}
    (each : ∀ group ∈ groups, ∀ token ∈ group, ∃ json, token.toJson? = some json) :
    ∃ items, groupsToJson? groups = some items := by
  induction groups with
  | nil => exact ⟨[], rfl⟩
  | cons group rest ih =>
    obtain ⟨items, groupWritten⟩ := exists_groupToJson? (each group List.mem_cons_self)
    obtain ⟨others, restWritten⟩ := ih fun group listed => each group (List.mem_cons_of_mem _ listed)
    exact ⟨.list items :: others, by simp [groupsToJson?, groupWritten, restWritten]⟩

theorem exists_toJson?_of_not_occursIn {token : Token} :
    ¬ (combinator .descendantOrSelf).OccursIn [[token]] → ∃ json, token.toJson? = some json := by
  induction token using Token.induct with
  | subselect name groups ih =>
    intro absent
    have each (group : Group) (listed : group ∈ groups) (token : Token) (member : token ∈ group) :
        ∃ json, token.toJson? = some json :=
      ih group listed token member fun occurs =>
        absent (.deeper List.mem_cons_self List.mem_cons_self (occurs.of_singleton listed member))
    obtain ⟨items, written⟩ := exists_groupsToJson? each
    exact ⟨_, Option.bind_eq_some_iff.mpr ⟨items, written, rfl⟩⟩
  | combinator kind =>
    intro absent
    cases kind with
    | descendantOrSelf => exact absurd (.here List.mem_cons_self List.mem_cons_self) absent
    | _ => exact ⟨_, rfl⟩
  | _ => exact fun _ => ⟨_, rfl⟩

end Writing

section Origin

variable {nested : Bool}

private theorem exists_item_of_groupOfJson? {items : List Json} {group : Group}
    (read : groupOfJson? nested items = some group) {token : Token} (member : token ∈ group) :
    ∃ item, ofJson? nested item = some token := by
  induction items generalizing group with
  | nil =>
    obtain rfl := Option.some.inj read
    exact absurd member List.not_mem_nil
  | cons item rest ih =>
    obtain ⟨first, firstRead, read⟩ := Option.bind_eq_some_iff.mp read
    obtain ⟨others, restRead, read⟩ := Option.bind_eq_some_iff.mp read
    obtain rfl := Option.some.inj read
    rcases List.mem_cons.mp member with rfl | inside
    · exact ⟨item, firstRead⟩
    · exact ih restRead inside

/-- Every token of the groups that are read was read from some JSON. -/
theorem exists_item_of_groupsOfJson? {items : List Json} {groups : SelectorList}
    (read : groupsOfJson? nested items = some groups) {group : Group} (listed : group ∈ groups)
    {token : Token} (member : token ∈ group) : ∃ item, ofJson? nested item = some token := by
  induction items generalizing groups with
  | nil =>
    obtain rfl := Option.some.inj read
    exact absurd listed List.not_mem_nil
  | cons item rest ih =>
    cases item with
    | list tokens =>
      obtain ⟨first, firstRead, read⟩ := Option.bind_eq_some_iff.mp read
      obtain ⟨others, restRead, read⟩ := Option.bind_eq_some_iff.mp read
      obtain rfl := Option.some.inj read
      rcases List.mem_cons.mp listed with rfl | further
      · exact exists_item_of_groupOfJson? firstRead member
      · exact ih restRead further
    | _ => cases read

private theorem exists_items_of_argumentOfFields? {fields : List (String × Json)} {groups : SelectorList}
    (read : argumentOfFields? fields = some (.groups groups)) :
    ∃ items, groupsOfJson? true items = some groups := by
  induction fields with
  | nil => cases read
  | cons field rest ih =>
    rw [argumentOfFields?] at read
    split at read
    · cases value : field.2 with
      | list items =>
        rw [value] at read
        obtain ⟨inner, innerRead, isArgument⟩ := Option.map_eq_some_iff.mp read
        exact ⟨items, innerRead.trans (congrArg some (Argument.groups.inj isArgument))⟩
      | _ =>
        rw [value] at read
        cases read
    · exact ih read

private theorem exists_selector_of_attributeOfFields? {fields : List (String × Json)} {token : Token}
    (read : attributeOfFields? fields = some token) : ∃ selector, token = .attribute selector := by
  simp only [attributeOfFields?, Option.bind_eq_bind, Option.bind_eq_some_iff, Option.pure_def] at read
  obtain ⟨_, -, _, -, _, -, _, -, read⟩ := read
  split at read <;> simp only [Option.bind_eq_some_iff, Option.some.injEq] at read
  · obtain ⟨_, -, _, -, _, -, rfl⟩ := read
    exact ⟨_, rfl⟩
  · obtain ⟨_, -, _, -, _, -, rfl⟩ := read
    exact ⟨_, rfl⟩

/-- A combinator that is read is one that is written, and a selector list that is read was given as one. -/
theorem ofJson?_origin {json : Json} {token : Token} (read : ofJson? nested json = some token) :
    token ≠ .combinator .descendantOrSelf ∧
      ∀ name groups, token = .subselect name groups → ∃ items, groupsOfJson? true items = some groups := by
  cases json with
  | object fields =>
    rw [ofJson?] at read
    obtain ⟨value, -, read⟩ := Option.bind_eq_some_iff.mp read
    obtain ⟨kind, kindRead, read⟩ := Option.bind_eq_some_iff.mp read
    cases kind with
    | combinator kind =>
      obtain rfl := Option.some.inj read
      refine ⟨fun same => Kind.ne_descendantOrSelf_of_ofJson? kindRead ?_, nofun⟩
      rw [combinator.inj same]
    | pseudo =>
      obtain ⟨given, -, read⟩ := Option.bind_eq_some_iff.mp read
      obtain ⟨name, -, read⟩ := Option.bind_eq_some_iff.mp read
      obtain ⟨argument, argumentRead, read⟩ := Option.bind_eq_some_iff.mp read
      obtain rfl := Option.some.inj read
      cases argument with
      | groups inner =>
        refine ⟨nofun, ?_⟩
        rintro _ _ ⟨⟩
        exact exists_items_of_argumentOfFields? argumentRead
      | _ => exact ⟨nofun, nofun⟩
    | tag =>
      simp only [Option.bind_eq_bind, Option.bind_eq_some_iff, Option.pure_def, Option.some.injEq] at read
      obtain ⟨_, -, _, -, _, -, rfl⟩ := read
      exact ⟨nofun, nofun⟩
    | universal =>
      obtain ⟨_, -, read⟩ := Option.bind_eq_some_iff.mp read
      obtain rfl := Option.some.inj read
      exact ⟨nofun, nofun⟩
    | attributeTest =>
      obtain ⟨selector, rfl⟩ := exists_selector_of_attributeOfFields? read
      exact ⟨nofun, nofun⟩
    | pseudoElement =>
      simp only [Option.bind_eq_bind, Option.bind_eq_some_iff, Option.pure_def, Option.some.injEq] at read
      obtain ⟨_, -, _, -, _, -, rfl⟩ := read
      exact ⟨nofun, nofun⟩
  | _ => cases read

/-- The combinator that is never written is in nothing that is read. -/
theorem not_occursIn_of_groupsOfJson? {items : List Json} {groups : SelectorList}
    (read : groupsOfJson? nested items = some groups) : ¬ (combinator .descendantOrSelf).OccursIn groups := by
  intro occurs
  -- Down to where the combinator stands, every list was itself read from JSON, as an argument.
  induction occurs generalizing nested items with
  | here listed member =>
    obtain ⟨item, itemRead⟩ := exists_item_of_groupsOfJson? read listed member
    exact (ofJson?_origin itemRead).1 rfl
  | deeper listed member _ ih =>
    obtain ⟨item, itemRead⟩ := exists_item_of_groupsOfJson? read listed member
    obtain ⟨inner, innerRead⟩ := (ofJson?_origin itemRead).2 _ _ rfl
    exact ih innerRead

end Origin
end Token

namespace SelectorList

theorem ofJson?_of_toJson? {selectors : SelectorList} {json : Json} (written : selectors.toJson? = some json) :
    ofJson? json = some selectors := by
  obtain ⟨items, groupsWritten, written⟩ := Option.bind_eq_some_iff.mp written
  obtain rfl := Option.some.inj written
  exact Token.groupsOfJson?_of_groupsToJson?
    (fun _ _ _ _ _ tokenWritten => Token.ofJson?_of_toJson? tokenWritten false) groupsWritten

theorem not_occursIn_of_ofJson? {json : Json} {selectors : SelectorList} (read : ofJson? json = some selectors) :
    ¬ (Token.combinator .descendantOrSelf).OccursIn selectors := by
  cases json with
  | list items => exact Token.not_occursIn_of_groupsOfJson? read
  | _ => cases read

theorem exists_toJson?_iff {selectors : SelectorList} :
    (∃ json, selectors.toJson? = some json) ↔ ¬ (Token.combinator .descendantOrSelf).OccursIn selectors := by
  constructor
  · rintro ⟨json, written⟩
    exact not_occursIn_of_ofJson? (ofJson?_of_toJson? written)
  · intro absent
    have each (group : Group) (listed : group ∈ selectors) (token : Token) (member : token ∈ group) :
        ∃ json, token.toJson? = some json :=
      Token.exists_toJson?_of_not_occursIn fun occurs => absent (occurs.of_singleton listed member)
    obtain ⟨items, written⟩ := Token.exists_groupsToJson? each
    exact ⟨.list items, Option.bind_eq_some_iff.mpr ⟨items, written, rfl⟩⟩

/-- What is written after reading some JSON. -/
def rewritten? (json : Json) : Option Json := do (← ofJson? json).toJson?

/-- A selector list without the combinator that is never written is read back from its JSON form. JSON that
is read as a selector list is rewritten to the form of that list, whose rewriting is itself. -/
theorem reads_back_as_written :
    (∀ selectors : SelectorList, ¬ (Token.combinator .descendantOrSelf).OccursIn selectors →
      ∃ written, selectors.toJson? = some written ∧ ofJson? written = some selectors) ∧
    ∀ (json : Json) (selectors : SelectorList), ofJson? json = some selectors →
      ∃ written, rewritten? json = some written ∧ ofJson? written = some selectors ∧
        rewritten? written = some written := by
  constructor
  · intro selectors absent
    obtain ⟨written, isWritten⟩ := exists_toJson?_iff.mpr absent
    exact ⟨written, isWritten, ofJson?_of_toJson? isWritten⟩
  · intro json selectors read
    obtain ⟨written, isWritten⟩ := exists_toJson?_iff.mpr (not_occursIn_of_ofJson? read)
    have readBack := ofJson?_of_toJson? isWritten
    exact ⟨written, Option.bind_eq_some_iff.mpr ⟨selectors, read, isWritten⟩, readBack,
      Option.bind_eq_some_iff.mpr ⟨selectors, readBack, isWritten⟩⟩

/-- An alternative that is nested and empty, a text argument that is empty, an argument without
alternatives, and a field that no token has. -/
theorem reads_back_nested_and_unknown :
    (∃ written, toJson? [[.combinator .child, .subselect "is" [[], [.pseudoClass "lang" (some "")]]],
        [.subselect "not" []]] = some written ∧
      ofJson? written = some [[.combinator .child, .subselect "is" [[], [.pseudoClass "lang" (some "")]]],
        [.subselect "not" []]]) ∧
    ∃ written, rewritten? (.list [.list [.object [("name", .text "a"), ("note", .number 1), ("type", .text "tag")]]]) =
        some written ∧
      ofJson? written = some [[.tag "a" none]] ∧ rewritten? written = some written :=
  ⟨reads_back_as_written.1 _ (exists_toJson?_iff.mp ⟨_, rfl⟩), reads_back_as_written.2 _ [[.tag "a" none]] rfl⟩

end SelectorList
end SelectorEngine
