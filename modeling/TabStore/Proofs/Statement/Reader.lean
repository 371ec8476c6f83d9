import TabStore.Proofs.Items
import TabStore.Statement.Parser

/-!
# What statements are made of

Every name, list and condition of a statement that is read from some text is valid, and nothing in
its main clause is an unquoted opening parenthesis.

What is assumed of the tokens and what follows for names and errors is kept apart from the rules, as
a grade.

Results:
1. `Reader.ensures_bind` and one lemma for each rule: what a rule returns and how it fails, on tokens
   of any grade;
2. `ends_ofTokens`: what a statement is made of, or why it is refused;
3. `isClear_tokenize`: the tokens of a main clause are clear;
4. `isReadable_of_parse`: the parts of a statement that is read are valid.
-/

namespace TabStore

open Text

/-- A text without unquoted opening parentheses in which every literal ends. -/
def IsClear (text : String) : Prop := Free (· == '(') false text.toList ∧ Closed text.toList

theorem isClear_of_plain {text : String} (quote : '\'' ∉ text.toList)
    (opening : '(' ∉ text.toList) :
    IsClear text := by
  refine ⟨(free_iff_of_plain quote).mpr fun c mem => ?_, closed_of_plain quote⟩
  rw [beq_eq_false_iff_ne]
  rintro rfl
  exact opening mem

theorem isClear_word (keyword : Keyword) : IsClear keyword.word := by
  cases keyword <;> exact isClear_of_plain (by decide) (by decide)

/-- A name that can stand in a main clause. -/
structure IsClauseName (name : String) : Prop where
  isName : IsName name
  noList : '(' ∉ name.toList

def Condition.IsCompiled (condition : Condition) : Prop := ∃ text, compile text = .ok condition

/-- The valid columns of a selection. -/
def Projection.IsReadable : Projection → Prop
  | .all => True
  | .columns names => Items.IsColumns names ∧ ∀ name ∈ names, '(' ∉ name.toList

def SchemaChange.name : SchemaChange → String
  | .add name | .drop name => name

namespace Statement

/-- What holds of the parts of every statement that is read. -/
def IsReadable : Statement → Prop
  | .database (.use name) | .database (.create name) | .database (.drop name) => IsClauseName name
  | .table (.create name attributes) =>
    IsClauseName name ∧ (attributes = [] ∨ Items.IsAttributes attributes)
  | .table (.drop name) => IsClauseName name
  | .table (.alter name change) => IsClauseName name ∧ IsClauseName change.name
  | .table (.insert name values) =>
    IsClauseName name ∧ values ≠ [] ∧ ∀ raw ∈ values, Value.isLiteral raw = true
  | .table (.select name columns condition) =>
    IsClauseName name ∧ columns.IsReadable ∧ ∀ c, condition = some c → c.IsCompiled
  | .table (.update name assignments condition) =>
    IsClauseName name ∧ Items.IsAssignments assignments ∧
      (∀ a ∈ assignments, '(' ∉ a.target.toList) ∧ condition.IsCompiled
  | .table (.delete name condition) => IsClauseName name ∧ condition.IsCompiled
  | .table (.join primary secondary) =>
    IsClauseName primary.table ∧ IsClauseName primary.on ∧ IsClauseName secondary.table ∧
      IsClauseName secondary.on

end Statement

/-- The columns of a selection, and what holds of their names. -/
def Projection.IsMadeOf (N : String → Prop) : Projection → Prop
  | .all => True
  | .columns names => Items.IsColumns names ∧ ∀ name ∈ names, N name

/-- The parts of a statement, and what holds of the names that stand in its main clause. -/
def Statement.IsMadeOf (N : String → Prop) : Statement → Prop
  | .database (.use name) | .database (.create name) | .database (.drop name) => N name
  | .table (.create name attributes) => N name ∧ (attributes = [] ∨ Items.IsAttributes attributes)
  | .table (.drop name) => N name
  | .table (.alter name change) => N name ∧ N change.name
  | .table (.insert name values) =>
    N name ∧ values ≠ [] ∧ ∀ raw ∈ values, Value.isLiteral raw = true
  | .table (.select name columns condition) =>
    N name ∧ columns.IsMadeOf N ∧ ∀ c, condition = some c → c.IsCompiled
  | .table (.update name assignments condition) =>
    N name ∧ Items.IsAssignments assignments ∧ (∀ a ∈ assignments, N a.target) ∧
      condition.IsCompiled
  | .table (.delete name condition) => N name ∧ condition.IsCompiled
  | .table (.join primary secondary) =>
    N primary.table ∧ N primary.on ∧ N secondary.table ∧ N secondary.on

/-! ## Grades -/

namespace Statement

/-- What is assumed of the tokens and of the list that a statement is read from, and what is to hold
of the names in its main clause and of the error that refuses it. -/
structure Grade where
  token : Token → Prop
  text : String → Prop
  list : String → Prop
  name : String → Prop
  fault : Error → Prop

/-- What each rule takes from tokens, texts and lists, and each error that it gives, is as it is to
be. A text is put together from tokens. -/
structure Grade.IsKept (g : Grade) : Prop where
  endMark : g.token .endMark
  joined : ∀ tokens : List Token, (∀ token ∈ tokens, g.token token) →
    g.text (" ".intercalate (tokens.map Token.display))
  unknown : ∀ token, g.token token → g.fault (.unknownCommand token.display)
  unexpected : ∀ token expected, g.token token → '\n' ∉ expected.toList →
    g.fault (.unexpectedToken expected token.display)
  required : ∀ verb : Keyword, g.fault (.conditionRequired verb.word)
  noValues : g.fault (.malformedList "INSERT requires a value list")
  validate : ∀ text, g.token (.word text) → Ends (fun _ => g.name text) g.fault (validateName text)
  attributes : ∀ list, g.list list → Ends (fun _ => True) g.fault (Items.attributes list)
  values : ∀ list, g.list list → Ends (fun _ => True) g.fault (Items.values list)
  projection : ∀ text, g.text text → Ends (fun columns => ∀ names, columns = .columns names →
    ∀ name ∈ names, g.name name) g.fault (Items.projection text)
  assignments : ∀ text, g.text text →
    Ends (fun items => ∀ a ∈ items, g.name a.target) g.fault (Items.assignments text)
  condition : ∀ words list, g.text words → (∀ l, list = some l → g.list l) →
    Ends (fun _ => True) g.fault (Condition.compile (match list with
      | none => words
      | some list => if words.isEmpty then list else words ++ " " ++ list))

/-- Tokens and a list that are as they are assumed to be. -/
structure Grade.Covers (g : Grade) (remaining : Remaining) : Prop where
  tokens : ∀ token ∈ remaining.tokens, g.token token
  list : ∀ list, remaining.list = some list → g.list list

/-! ## Rules -/

namespace Reader

variable {α β : Type} {g : Grade}

/-- What a rule returns satisfies `P`, and what it leaves and the error it gives are as they are to
be. -/
def Ensures (g : Grade) (reader : Reader α) (P : α → Prop) : Prop :=
  ∀ ⦃before : Remaining⦄, g.Covers before →
    Ends (fun result => g.Covers result.2 ∧ P result.1) g.fault (reader before)

theorem bind_apply (reader : Reader α) (next : α → Reader β) (remaining : Remaining) :
    (reader >>= next) remaining = reader remaining >>= fun result => next result.1 result.2 := rfl

theorem ensures_pure {P : α → Prop} {a : α} (h : P a) : Ensures g (pure a : Reader α) P :=
  fun _ covers => ⟨covers, h⟩

theorem ensures_bind {reader : Reader α} {next : α → Reader β} {P : α → Prop} {Q : β → Prop}
    (first : Ensures g reader P) (second : ∀ a, P a → Ensures g (next a) Q) :
    Ensures g (reader >>= next) Q := by
  intro before covers
  rw [bind_apply]
  exact (first covers).bind fun result _ holds => second result.1 holds.2 holds.1

theorem ensures_map {reader : Reader α} {f : α → β} {P : α → Prop} {Q : β → Prop}
    (first : Ensures g reader P) (h : ∀ a, P a → Q (f a)) : Ensures g (f <$> reader) Q := by
  rw [map_eq_pure_bind]
  exact ensures_bind first fun a holds => ensures_pure (h a holds)

theorem ensures_fail {P : α → Prop} {e : Error} (h : g.fault e) :
    Ensures g (fail e : Reader α) P := fun _ _ => h

theorem ensures_lift {result : Result α} {P : α → Prop} (h : Ends P g.fault result) :
    Ensures g (lift result) P := by
  intro before covers
  cases result with
  | error e => exact h
  | ok a => exact ⟨covers, h⟩

theorem ensures_skip : Ensures g skip fun _ => True := by
  intro before covers
  exact ⟨⟨fun token mem => covers.tokens token (List.mem_of_mem_tail mem), covers.list⟩, trivial⟩

theorem ensures_takeList : Ensures g takeList fun list => ∀ l, list = some l → g.list l := by
  intro before covers
  exact ⟨⟨covers.tokens, nofun⟩, covers.list⟩

section

variable (kept : g.IsKept)

include kept

theorem ensures_peek : Ensures g peek g.token := by
  intro before covers
  refine ⟨covers, ?_⟩
  obtain ⟨tokens, list⟩ := before
  cases tokens with
  | nil => exact kept.endMark
  | cons token rest => exact covers.tokens token List.mem_cons_self

theorem ensures_unexpected {P : α → Prop} {expected : String} (plain : '\n' ∉ expected.toList) :
    Ensures g (unexpected expected : Reader α) P :=
  ensures_bind (ensures_peek kept) fun token h =>
    ensures_fail (kept.unexpected token expected h plain)

theorem ensures_expect (keyword : Keyword) : Ensures g (expect keyword) fun _ => True := by
  refine ensures_bind (ensures_peek kept) fun token _ => ?_
  split
  · exact ensures_skip
  · exact ensures_unexpected kept (by cases keyword <;> decide)

theorem ensures_name : Ensures g name g.name := by
  refine ensures_bind (ensures_peek kept) fun token h => ?_
  split
  · next text =>
    refine ensures_bind (ensures_lift (kept.validate text h)) fun _ named => ?_
    exact ensures_bind ensures_skip fun _ _ => ensures_pure named
  · exact ensures_unexpected kept (by decide)

theorem ensures_textUntil (stop : Token → Bool) : Ensures g (textUntil stop) g.text := by
  intro before covers
  refine ⟨⟨fun token mem => covers.tokens token ((List.dropWhile_suffix _).mem mem), covers.list⟩,
    kept.joined _ fun token mem => covers.tokens token ((List.takeWhile_prefix _).mem mem)⟩

theorem ensures_condition : Ensures g condition Condition.IsCompiled := by
  refine ensures_bind (ensures_textUntil kept _) fun words clear => ?_
  refine ensures_bind ensures_takeList fun list listed => ensures_lift ?_
  exact (kept.condition words list clear listed).imp fun c compiled _ => ⟨_, compiled⟩

theorem ensures_use : Ensures g use fun s => IsMadeOf g.name (.database s) :=
  ensures_bind (ensures_name kept) fun _ h => ensures_pure h

theorem ensures_create : Ensures g create (IsMadeOf g.name) := by
  refine ensures_bind (ensures_peek kept) fun token _ => ?_
  split
  · refine ensures_bind ensures_skip fun _ _ => ?_
    exact ensures_bind (ensures_name kept) fun _ h => ensures_pure h
  · refine ensures_bind ensures_skip fun _ _ => ?_
    refine ensures_bind (ensures_name kept) fun _ isName => ?_
    refine ensures_bind ensures_takeList fun list listed => ?_
    split
    · exact ensures_pure ⟨isName, .inl rfl⟩
    · next list =>
      have read : Ends Items.IsAttributes g.fault (Items.attributes list) :=
        (kept.attributes list (listed list rfl)).imp fun _ found _ =>
          Items.isAttributes_of_attributes found
      exact ensures_bind (ensures_lift read) fun names h => ensures_pure ⟨isName, .inr h⟩
  · exact ensures_unexpected kept (by decide)

theorem ensures_drop : Ensures g drop (IsMadeOf g.name) := by
  refine ensures_bind (ensures_peek kept) fun token _ => ?_
  split
  · refine ensures_bind ensures_skip fun _ _ => ?_
    exact ensures_bind (ensures_name kept) fun _ h => ensures_pure h
  · refine ensures_bind ensures_skip fun _ _ => ?_
    exact ensures_bind (ensures_name kept) fun _ h => ensures_pure h
  · exact ensures_unexpected kept (by decide)

theorem ensures_alter : Ensures g alter fun s => IsMadeOf g.name (.table s) := by
  refine ensures_bind (ensures_expect kept _) fun _ _ => ?_
  refine ensures_bind (ensures_name kept) fun _ isName => ?_
  refine ensures_bind (ensures_peek kept) fun token _ => ?_
  split
  · refine ensures_bind ensures_skip fun _ _ => ?_
    exact ensures_bind (ensures_name kept) fun _ h => ensures_pure ⟨isName, h⟩
  · refine ensures_bind ensures_skip fun _ _ => ?_
    exact ensures_bind (ensures_name kept) fun _ h => ensures_pure ⟨isName, h⟩
  · exact ensures_unexpected kept (by decide)

theorem ensures_insert : Ensures g insert fun s => IsMadeOf g.name (.table s) := by
  refine ensures_bind (ensures_expect kept _) fun _ _ => ?_
  refine ensures_bind (ensures_name kept) fun _ isName => ?_
  refine ensures_bind (ensures_expect kept _) fun _ _ => ?_
  refine ensures_bind ensures_takeList fun list listed => ?_
  split
  · exact ensures_fail kept.noValues
  · next list =>
    have read := (kept.values list (listed list rfl)).imp fun _ found _ => Items.values_eq_ok found
    exact ensures_bind (ensures_lift read) fun raws h => ensures_pure ⟨isName, h⟩

theorem ensures_select : Ensures g select fun s => IsMadeOf g.name (.table s) := by
  refine ensures_bind (ensures_textUntil kept _) fun text clear => ?_
  refine ensures_bind (ensures_expect kept _) fun _ _ => ?_
  refine ensures_bind (P := Projection.IsMadeOf g.name) (ensures_lift ?_) fun columns valid => ?_
  · refine (kept.projection text clear).imp fun columns found named => ?_
    rcases Items.projection_eq_ok found with rfl | ⟨names, rfl, valid, -⟩
    · trivial
    · exact ⟨valid, named names rfl⟩
  · refine ensures_bind (ensures_name kept) fun _ isName => ?_
    refine ensures_bind (ensures_peek kept) fun token _ => ?_
    split
    · refine ensures_bind ensures_skip fun _ _ => ?_
      refine ensures_bind (ensures_condition kept) fun c compiled => ?_
      refine ensures_pure ⟨isName, valid, fun d same => ?_⟩
      cases same
      exact compiled
    · exact ensures_pure ⟨isName, valid, nofun⟩

theorem ensures_requiredCondition (verb : Keyword) :
    Ensures g (requiredCondition verb) Condition.IsCompiled := by
  refine ensures_bind (ensures_peek kept) fun token _ => ?_
  split
  · exact ensures_fail (kept.required verb)
  · exact ensures_bind (ensures_expect kept _) fun _ _ => ensures_condition kept

theorem ensures_update : Ensures g update fun s => IsMadeOf g.name (.table s) := by
  refine ensures_bind (ensures_name kept) fun _ isName => ?_
  refine ensures_bind (ensures_expect kept _) fun _ _ => ?_
  refine ensures_bind (ensures_textUntil kept _) fun text clear => ?_
  have read := (kept.assignments text clear).imp fun items found named =>
    And.intro (Items.assignments_eq_ok found).1 named
  refine ensures_bind (ensures_lift read) fun items h => ?_
  refine ensures_bind (ensures_requiredCondition kept _) fun c compiled => ?_
  exact ensures_pure ⟨isName, h.1, h.2, compiled⟩

theorem ensures_delete : Ensures g delete fun s => IsMadeOf g.name (.table s) := by
  refine ensures_bind (ensures_expect kept _) fun _ _ => ?_
  refine ensures_bind (ensures_name kept) fun _ isName => ?_
  refine ensures_bind (ensures_requiredCondition kept _) fun c compiled => ?_
  exact ensures_pure ⟨isName, compiled⟩

theorem ensures_join : Ensures g join fun s => IsMadeOf g.name (.table s) := by
  refine ensures_bind (ensures_name kept) fun _ primary => ?_
  refine ensures_bind (ensures_expect kept _) fun _ _ => ?_
  refine ensures_bind (ensures_name kept) fun _ secondary => ?_
  refine ensures_bind (ensures_expect kept _) fun _ _ => ?_
  refine ensures_bind (ensures_name kept) fun _ primaryKey => ?_
  refine ensures_bind (ensures_expect kept _) fun _ _ => ?_
  refine ensures_bind (ensures_name kept) fun _ secondaryKey => ?_
  exact ensures_pure ⟨primary, primaryKey, secondary, secondaryKey⟩

theorem ensures_afterVerb {verb : Keyword} (h : g.token (.keyword verb)) :
    Ensures g (afterVerb verb) (IsMadeOf g.name) := by
  unfold afterVerb
  split
  · exact ensures_map (ensures_use kept) fun _ h => h
  · exact ensures_create kept
  · exact ensures_drop kept
  · exact ensures_map (ensures_alter kept) fun _ h => h
  · exact ensures_map (ensures_insert kept) fun _ h => h
  · exact ensures_map (ensures_select kept) fun _ h => h
  · exact ensures_map (ensures_update kept) fun _ h => h
  · exact ensures_map (ensures_delete kept) fun _ h => h
  · exact ensures_map (ensures_join kept) fun _ h => h
  · exact ensures_fail (kept.unknown _ h)

theorem ensures_statement : Ensures g statement (IsMadeOf g.name) := by
  refine ensures_bind (ensures_peek kept) fun token h => ?_
  split
  · exact ensures_bind ensures_skip fun _ _ => ensures_afterVerb kept h
  · exact ensures_fail (kept.unknown _ h)

end

end Reader

/-! ## Grades that say nothing of errors -/

/-- Where errors do not matter, a grade is kept if the names are as they are to be. -/
theorem Grade.isKept_of_names {token : Token → Prop} {text name : String → Prop}
    (endMark : token .endMark)
    (joined : ∀ tokens : List Token, (∀ t ∈ tokens, token t) →
      text (" ".intercalate (tokens.map Token.display)))
    (word : ∀ name', token (.word name') → IsName name' → name name')
    (piece : ∀ source, text source → ∀ name', IsName name' →
      (∀ q, Free q false source.toList → Free q false name'.toList) → name name') :
    Grade.IsKept ⟨token, text, fun _ => True, name, fun _ => True⟩ where
  endMark := endMark
  joined := joined
  unknown := fun _ _ => trivial
  unexpected := fun _ _ _ _ => trivial
  required := fun _ => trivial
  noValues := trivial
  validate := fun name' h =>
    ends_iff.mpr ⟨fun _ valid => word name' h valid, fun _ _ => trivial⟩
  attributes := fun _ _ => ends_iff.mpr ⟨fun _ _ => trivial, fun _ _ => trivial⟩
  values := fun _ _ => ends_iff.mpr ⟨fun _ _ => trivial, fun _ _ => trivial⟩
  projection := by
    refine fun source h => ends_iff.mpr ⟨fun columns found names same name' mem => ?_,
      fun _ _ => trivial⟩
    rcases Items.projection_eq_ok found with rfl | ⟨names, rfl, valid, pieces⟩
    · cases same
    · cases same
      exact piece source h name' (valid.isName name' mem) (pieces name' mem)
  assignments := by
    refine fun source h => ends_iff.mpr ⟨fun items found a mem => ?_, fun _ _ => trivial⟩
    obtain ⟨valid, pieces⟩ := Items.assignments_eq_ok found
    exact piece source h a.target (valid.sound a mem).isName (pieces a mem)
  condition := fun _ _ _ _ => ends_iff.mpr ⟨fun _ _ => trivial, fun _ _ => trivial⟩

/-- Tokens whose texts are clear. -/
def Grade.clear : Grade :=
  ⟨fun token => IsClear token.display, IsClear, fun _ => True, IsClauseName, fun _ => True⟩

theorem isClear_endMark : IsClear Token.endMark.display :=
  isClear_of_plain (by decide) (by decide)

theorem isClear_intercalate {tokens : List Token} (h : ∀ token ∈ tokens, IsClear token.display) :
    IsClear (" ".intercalate (tokens.map Token.display)) := by
  rw [IsClear, String.toList_intercalate]
  refine free_intercalate (by decide) (by decide) fun piece mem => ?_
  obtain ⟨word, found, rfl⟩ := List.mem_map.mp mem
  obtain ⟨token, present, rfl⟩ := List.mem_map.mp found
  exact h token present

theorem Grade.isKept_clear : Grade.clear.IsKept := by
  have noList : ∀ name, IsName name → Free (· == '(') false name.toList → '(' ∉ name.toList :=
    fun name isName free mem => absurd (isName.free_iff.mp free '(' mem) (by decide)
  refine isKept_of_names isClear_endMark (fun _ => isClear_intercalate) ?_ ?_
  · exact fun name clear isName => ⟨isName, noList name isName clear.1⟩
  · exact fun source clear name isName piece => ⟨isName, noList name isName (piece _ clear.1)⟩

/-- Any tokens. -/
def Grade.any : Grade := ⟨fun _ => True, fun _ => True, fun _ => True, IsName, fun _ => True⟩

theorem Grade.isKept_any : Grade.any.IsKept :=
  isKept_of_names trivial (fun _ _ => trivial) (fun _ _ isName => isName)
    fun _ _ _ isName _ => isName

/-! ## Statements -/

theorem isReadable_of_isMadeOf {s : Statement} (h : s.IsMadeOf IsClauseName) : s.IsReadable := by
  cases s with
  | database statement => cases statement <;> exact h
  | table statement =>
    cases statement with
    | create | drop | alter | insert | delete => exact h
    | select name columns condition =>
      refine ⟨h.1, ?_, h.2.2⟩
      cases columns with
      | all => trivial
      | columns names => exact ⟨h.2.1.1, fun name mem => (h.2.1.2 name mem).noList⟩
    | update name assignments condition =>
      exact ⟨h.1, h.2.1, fun a mem => (h.2.2.1 a mem).noList, h.2.2.2⟩
    | join primary secondary => exact h

theorem ofTokens_eq_ok {tokens : List Token} {list : Option String} {s : Statement} :
    ofTokens tokens list = .ok s ↔
      Reader.statement.run ⟨tokens.takeWhile (· != .endMark), list⟩ = .ok (s, ⟨[], none⟩) := by
  unfold ofTokens
  rw [bind_eq_ok]
  constructor
  · rintro ⟨⟨result, remaining⟩, run, h⟩
    dsimp only at h
    split at h
    · cases h
    · cases h
    · cases h
      exact run
  · intro run
    exact ⟨_, run, rfl⟩

/-- What is assumed of tokens and list tells what a statement is made of or why it is refused. -/
theorem ends_ofTokens {g : Grade} (kept : g.IsKept) {tokens : List Token} {list : Option String}
    (covers : ∀ token ∈ tokens, g.token token) (listed : ∀ l, list = some l → g.list l)
    (left : ∀ token, g.token token → g.fault (.trailingInput token.display))
    (leftList : ∀ l, g.list l → g.fault (.trailingInput l)) :
    Ends (IsMadeOf g.name) g.fault (ofTokens tokens list) := by
  unfold ofTokens
  have given : g.Covers ⟨tokens.takeWhile (· != .endMark), list⟩ :=
    ⟨fun token mem => covers token ((List.takeWhile_prefix _).mem mem), listed⟩
  refine Ends.bind (Reader.ensures_statement kept given) fun result _ h => ?_
  obtain ⟨s, remaining⟩ := result
  dsimp only
  split
  · next token _ _ _ => exact left token (h.1.tokens token List.mem_cons_self)
  · next l _ => exact leftList l (h.1.list l rfl)
  · exact h.2

end Statement

/-! ## Texts -/

namespace Statement

theorem free_main_of_ofText {text : String} {source : Source}
    (h : Source.ofText text = .ok source) :
    Free (· == '(') false source.main.toList := by
  have body : ∀ chars, Free (· == '(') false (Source.ofBody chars).main.toList := by
    intro chars
    have free := free_breakUnquoted (· == '(') false chars
    unfold Source.ofBody
    split
    · rw [String.toList_ofList]
      have whole := breakUnquoted_append (· == '(') false chars
      simp_all
    · next main list _ found =>
      rw [found] at free
      obtain ⟨rest, -, same⟩ := trimEnd_append main
      rw [same, free_append] at free
      rw [String.toList_ofList]
      exact free.1
  unfold Source.ofText at h
  dsimp only at h
  split at h
  · cases h
  · split at h
    · cases h
    · split at h
      · cases h
      · cases h
        exact body _

theorem isClear_tokenize {text : String} {tokens : List Token}
    (free : Free (· == '(') false text.toList) (h : Token.tokenize text = .ok tokens) :
    ∀ token ∈ tokens, TabStore.IsClear token.display := by
  unfold Token.tokenize at h
  dsimp only at h
  split at h
  · cases h
  · next closed =>
    cases h
    intro token mem
    rcases List.mem_append.mp mem with word | last
    · obtain ⟨piece, found, rfl⟩ := List.mem_map.mp word
      obtain ⟨-, keeps, closes⟩ := @free_of_mem_splitUnquoted isBlank (· == '(') (by decide) _ _
        (List.mem_filter.mp found).1
      unfold Token.ofWord
      split
      · exact isClear_of_plain (by decide) (by decide)
      · split
        · exact isClear_word _
        · rw [Token.display, TabStore.IsClear, String.toList_ofList]
          exact ⟨keeps free, closes (Bool.eq_false_iff.mpr closed)⟩
    · rw [List.mem_singleton] at last
      subst last
      exact isClear_of_plain (by decide) (by decide)

/-- The parts of a statement that is read are valid. -/
theorem isReadable_of_parse {text : String} {s : Statement} (h : parse text = .ok s) :
    s.IsReadable := by
  obtain ⟨source, cut, h⟩ := bind_eq_ok.mp h
  obtain ⟨tokens, tokenized, h⟩ := bind_eq_ok.mp h
  have clear := isClear_tokenize (free_main_of_ofText cut) tokenized
  exact isReadable_of_isMadeOf ((ends_ofTokens Grade.isKept_clear clear (fun _ _ => trivial)
    (fun _ _ => trivial) fun _ _ => trivial).ok h)

end Statement

end TabStore
