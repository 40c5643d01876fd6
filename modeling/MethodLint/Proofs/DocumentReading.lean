import MethodLint.Proofs.NormalDocuments
import MethodLint.Proofs.Outcomes
import MethodLint.Yaml.Reader

/-! What reading a document comes to. There is a value, or the text is malformed, or
the reader is stopped by a value that cannot be built or by nesting that is too deep;
what files are there never matters to it. -/
namespace MethodLint.DocumentReading
open Yaml Outcomes NormalDocuments

/-- A fault that stops the reader of a document: a value that cannot be built, or
nesting that is too deep. -/
def Stops (e : Fault) : Prop :=
  e.category ∈ [FaultCategory.badValue, .badIndex, .missingKey, .missingOperation, .tooDeep]

instance (e : Fault) : Decidable (Stops e) := inferInstanceAs (Decidable (_ ∈ _))

/-- A refusal of a document, for being malformed or for such a fault. -/
def Stopping : Refusal → Prop
  | .malformed => True
  | .fault e => Stops e

/-- The result is an answer or such a refusal. -/
def EndsWell {α : Type} (x : Result α) : Prop := ∀ r, x = .error r → Stopping r

variable {α β : Type} {x : Result α}

@[simp] theorem endsWell_ok (a : α) : EndsWell (.ok a : Result α) := nofun

@[simp] theorem endsWell_pure (a : α) : EndsWell (pure a : Result α) := nofun

@[simp] theorem endsWell_error (r : Refusal) : EndsWell (.error r : Result α) ↔ Stopping r :=
  ⟨fun ends => ends r rfl, fun stopping r same => by cases same; exact stopping⟩

@[simp] theorem endsWell_malformed : EndsWell (malformed : Result α) := by
  simp [malformed, Stopping]

@[simp] theorem endsWell_bind {f : α → Result β} :
    EndsWell (x >>= f) ↔ EndsWell x ∧ ∀ a, x = .ok a → EndsWell (f a) := by
  cases x <;> simp [Bind.bind, Except.bind]

@[simp] theorem endsWell_map {f : α → β} : EndsWell (f <$> x) ↔ EndsWell x := by
  cases x <;> simp [Functor.map, Except.map]

@[simp] theorem endsWell_ite {c : Prop} [Decidable c] {y : Result α} :
    EndsWell (if c then x else y) ↔ (c → EndsWell x) ∧ (¬ c → EndsWell y) := by
  split <;> simp_all

/-! ## Texts of scalars -/

theorem ignoredLine_ends (cur : Cursor) : EndsWell cur.ignoredLine := by
  simp [Cursor.ignoredLine]

theorem characterOf_ends (n : Nat) : EndsWell (characterOf n) := by
  simp [characterOf, Stopping, Stops, Fault.category]

theorem quotedBreaks_ends (steps : Nat) (found : List Char) (cur : Cursor) :
    EndsWell (quotedBreaks steps found cur) := by
  induction steps generalizing found cur with
  | zero => simp [quotedBreaks]
  | succ steps ih =>
    simp only [quotedBreaks, endsWell_ite, endsWell_malformed, implies_true, true_and]
    intro _
    split
    · exact ih _ _
    · simp

theorem escaped_ends (cur : Cursor) : EndsWell (escaped cur) := by
  simp only [escaped]
  cases escape? cur.head with
  | some c => simp
  | none =>
    cases escapeLength? cur.head with
    | some length =>
      dsimp only
      split <;> simp [characterOf_ends]
    | none =>
      dsimp only
      split
      · exact quotedBreaks_ends _ _ _
      · simp

theorem quotedFrom_ends (double : Bool) (steps : Nat) (done : List Char) (cur : Cursor) :
    EndsWell (quotedFrom double steps done cur) := by
  induction steps generalizing done cur with
  | zero => simp [quotedFrom]
  | succ steps ih =>
    unfold quotedFrom
    split
    · simp
    · simp [ih]
    · simp only [endsWell_ite, endsWell_ok, implies_true, true_and]
      refine fun _ => ⟨fun _ => ?_, fun _ => ⟨fun _ => ?_, fun _ => ih _ _⟩⟩
      · have inner := escaped_ends cur.next
        split
        · exact ih _ _
        · next failed => exact (endsWell_error _).mpr (inner _ failed)
      · split
        · split
          · exact ih _ _
          · next failed => exact (endsWell_error _).mpr (quotedBreaks_ends _ _ _ _ failed)
        · exact ih _ _

theorem blockScalar_ends (folded : Bool) (outer : Int) (cur : Cursor) :
    EndsWell (blockScalar folded outer cur) := by
  have header (cur : Cursor) : EndsWell (blockHeader cur) := by
    unfold blockHeader
    cases chomping? cur.head <;> simp [ignoredLine_ends]
  simp [blockScalar, header]

/-! ## Tokens -/

theorem address_ends (cur : Cursor) : EndsWell (Lexer.address cur) := by
  simp only [Lexer.address, endsWell_ite, endsWell_malformed, implies_true, true_and]
  intro _
  split <;> simp

theorem handle_ends (cur : Cursor) : EndsWell (Lexer.handle cur) := by
  simp [Lexer.handle]

theorem tag_ends (cur : Cursor) : EndsWell (Lexer.tag cur) := by
  simp [Lexer.tag, address_ends, handle_ends]

theorem versionNumber_ends (cur : Cursor) : EndsWell (Lexer.versionNumber cur) := by
  simp only [Lexer.versionNumber, endsWell_ite, endsWell_malformed, implies_true, true_and]
  intro _
  split
  · simp
  · next e failed =>
    unfold Decimal.intOfDigits at failed
    split at failed
    · cases failed
      simp [Stopping, Stops, Fault.category]
    · cases failed

theorem directive_ends (cur : Cursor) : EndsWell (Lexer.directive cur) := by
  have version (cur : Cursor) : EndsWell (Lexer.versionDirective cur) := by
    simp [Lexer.versionDirective, versionNumber_ends]
  have shorthand (cur : Cursor) : EndsWell (Lexer.shorthandDirective cur) := by
    simp [Lexer.shorthandDirective, handle_ends, address_ends]
  simp [Lexer.directive, version, shorthand, ignoredLine_ends]

theorem anchorName_ends (cur : Cursor) : EndsWell (Lexer.anchorName cur) := by
  simp [Lexer.anchorName]

theorem quotedScalar_ends (double : Bool) (cur : Cursor) : EndsWell (quotedScalar double cur) :=
  quotedFrom_ends _ _ _ _

theorem dropKey_ends (lex : Lexer) : EndsWell lex.dropKey := by
  simp [Lexer.dropKey]

theorem saveKey_ends (lex : Lexer) : EndsWell lex.saveKey := by
  simp [Lexer.saveKey, dropKey_ends]

theorem dropStaleKeys_ends (lex : Lexer) : EndsWell lex.dropStaleKeys := by
  simp [Lexer.dropStaleKeys, dropKey_ends]

theorem endDocument_ends (lex : Lexer) : EndsWell lex.endDocument := by
  simp [Lexer.endDocument, dropKey_ends]

theorem takePossibleKey_ends (lex : Lexer) {scan : Cursor → Result (Token × Cursor)}
    (scans : ∀ cur, EndsWell (scan cur)) : EndsWell (lex.takePossibleKey scan) := by
  simp [Lexer.takePossibleKey, saveKey_ends, scans]

theorem takeColon_ends (lex : Lexer) : EndsWell lex.takeColon := by
  unfold Lexer.takeColon
  split <;> simp

theorem takeClosing_ends (lex : Lexer) (token : Token) : EndsWell (lex.takeClosing token) := by
  unfold Lexer.takeClosing
  refine endsWell_bind.mpr ⟨dropKey_ends lex, fun _ _ => ?_⟩
  split <;> simp

/-- A token is taken, or the reader is refused it. -/
theorem takeToken_ends (lex : Lexer) : EndsWell lex.takeToken := by
  simp [Lexer.takeToken, endDocument_ends, directive_ends, Lexer.takeOpening, saveKey_ends,
    takeClosing_ends, Lexer.takeComma, dropKey_ends, Lexer.takeDash, Lexer.takeKeyMark,
    takeColon_ends, takePossibleKey_ends, anchorName_ends, tag_ends, Lexer.takeBlock,
    blockScalar_ends, quotedScalar_ends, Lexer.takePlain]

theorem run_stopping (steps : Nat) (lex : Lexer) {r : Refusal}
    (stopped : (Lexer.run steps lex).stop = some r) : Stopping r := by
  induction steps generalizing lex with
  | zero => cases stopped
  | succ steps ih =>
    unfold Lexer.run at stopped
    dsimp only at stopped
    split at stopped
    · next failed =>
      cases stopped
      exact dropStaleKeys_ends _ _ failed
    · split at stopped
      · split at stopped
        · cases stopped
        · next failed =>
          cases stopped
          exact endDocument_ends _ _ failed
      · split at stopped
        · exact ih _ stopped
        · next failed =>
          cases stopped
          exact takeToken_ends _ _ failed

theorem tokens_stopping (text : List Char) {r : Refusal} (stopped : (Tokens.ofText text).stop = some r) :
    Stopping r := by
  unfold Tokens.ofText at stopped
  split at stopped
  · exact run_stopping _ _ stopped
  · cases stopped
    trivial

/-! ## Nodes -/

/-- Where the tokens end, they do so at the end of the text or at a stopping refusal. -/
def StopsWell (s : NodeReader) : Prop := ∀ r, s.stop = some r → Stopping r

/-- A step ends well and leaves the end of the tokens so. -/
def ReadsWell (m : Reads α) : Prop :=
  ∀ s, StopsWell s → EndsWell (m s) ∧ ∀ a t, m s = .ok (a, t) → StopsWell t

variable {m : Reads α}

@[simp] theorem readsWell_pure (a : α) : ReadsWell (pure a : Reads α) :=
  fun _ well => ⟨endsWell_pure _, fun _ _ same => by cases same; exact well⟩

@[simp] theorem readsWell_malformed : ReadsWell (throw .malformed : Reads α) :=
  fun _ _ => ⟨(endsWell_error _).mpr trivial, nofun⟩

@[simp] theorem readsWell_tooDeep : ReadsWell (throw (.fault .tooDeep) : Reads α) :=
  fun _ _ => ⟨(endsWell_error _).mpr (by simp [Stopping, Stops, Fault.category]), nofun⟩

@[simp] theorem readsWell_get : ReadsWell (get : Reads NodeReader) :=
  fun _ well => ⟨endsWell_pure _, fun _ _ same => by cases same; exact well⟩

/-- A change that leaves the end of the tokens alone. -/
@[simp] theorem readsWell_modify {f : NodeReader → NodeReader} (kept : ∀ s, (f s).stop = s.stop) :
    ReadsWell (modify f : Reads Unit) := by
  refine fun s well => ⟨endsWell_pure _, fun _ _ same => ?_⟩
  cases same
  exact fun r stopped => well r ((kept s).symm.trans stopped)

@[simp] theorem readsWell_bind {f : α → Reads β} (first : ReadsWell m) (second : ∀ a, ReadsWell (f a)) :
    ReadsWell (m >>= f) := by
  intro s well
  obtain ⟨ends, keeps⟩ := first s well
  have unfolded : (m >>= f) s = m s >>= fun p => f p.1 p.2 := rfl
  rw [unfolded]
  cases ran : m s with
  | error r =>
    rw [ran] at ends
    exact ⟨(endsWell_error r).mpr ((endsWell_error r).mp ends), nofun⟩
  | ok p => exact second p.1 p.2 (keeps p.1 p.2 ran)

@[simp] theorem readsWell_map {f : α → β} (first : ReadsWell m) : ReadsWell (f <$> m) := by
  rw [map_eq_pure_bind]
  exact readsWell_bind first fun _ => readsWell_pure _

@[simp] theorem readsWell_ite {c : Prop} [Decidable c] {other : Reads α} (yes : c → ReadsWell m)
    (no : ¬ c → ReadsWell other) : ReadsWell (if c then m else other) := by
  split
  · next holds => exact yes holds
  · next fails => exact no fails

/-- A step that is refused on a condition. -/
@[simp] theorem readsWell_unless {c : Prop} [Decidable c] (well : ReadsWell m) :
    ReadsWell (if c then (throw .malformed : Reads PUnit) >>= fun _ => m else m) :=
  readsWell_ite (fun _ => readsWell_bind readsWell_malformed fun _ => well) fun _ => well

@[simp] theorem next_well : ReadsWell next? := by
  rintro ⟨tokens, stop, named, shorthands⟩ well
  cases tokens with
  | cons token tail => exact ⟨endsWell_ok _, fun _ _ same => by cases same; exact well⟩
  | nil =>
    cases stop with
    | none => exact ⟨endsWell_ok _, fun _ _ same => by cases same; exact well⟩
    | some refusal =>
      have stopped : next? ⟨[], some refusal, named, shorthands⟩ = .error refusal := rfl
      rw [stopped]
      exact ⟨(endsWell_error _).mpr (well refusal rfl), fun _ _ same => nomatch same⟩

@[simp] theorem advance_well : ReadsWell advance := readsWell_modify fun _ => rfl

@[simp] theorem nextIs_well (tokens : List Token) : ReadsWell (nextIs tokens) := by
  simp [nextIs]

@[simp] theorem take_well (token : Token) : ReadsWell (take? token) := by
  simp [take?]

@[simp] theorem expect_well (token : Token) : ReadsWell (expect token) := by
  simp [expect]

@[simp] theorem tokenCount_well : ReadsWell tokenCount := by
  simp [tokenCount]

theorem find_well (name : String) : ReadsWell (find name) := by
  refine readsWell_bind readsWell_get fun s => ?_
  split <;> simp

theorem announce_well (name : String) : ReadsWell (announce name) :=
  readsWell_bind readsWell_get fun _ => readsWell_unless (readsWell_modify fun _ => rfl)

theorem bind_well (name : String) (node : Yaml.Node) : ReadsWell (Yaml.bind name node) :=
  readsWell_modify fun _ => rfl

theorem tagOf_well (handle : Option String) (rest : String) : ReadsWell (tagOf handle rest) := by
  unfold tagOf
  cases handle with
  | none => simp
  | some handle =>
    refine readsWell_bind readsWell_get fun s => ?_
    split <;> simp

theorem properties_well : ReadsWell properties := by
  unfold properties
  extract_lets finish
  have finished (name tag) : ReadsWell (finish (name, tag)) := by
    cases tag <;> simp [finish, tagOf_well]
  refine readsWell_bind next_well fun first => ?_
  split
  · refine readsWell_bind advance_well fun _ => readsWell_bind next_well fun second => ?_
    split <;> simp [finished]
  · refine readsWell_bind advance_well fun _ => readsWell_bind next_well fun second => ?_
    split <;> simp [finished]
  · simp [finished]

section Collections
variable {inner : Place → Reads Yaml.Node} (reads : ∀ place, ReadsWell (inner place))
include reads

theorem nodeUnless_well (place : Place) (tokens : List Token) :
    ReadsWell (nodeUnless inner place tokens) := by
  simp [nodeUnless, reads]

theorem valueUnless_well (place : Place) (tokens : List Token) :
    ReadsWell (valueUnless inner place tokens) := by
  simp [valueUnless, nodeUnless_well reads]

theorem blockItems_well (steps : Nat) : ReadsWell (blockItems inner steps) := by
  induction steps with
  | zero => simp [blockItems]
  | succ steps ih =>
    refine readsWell_bind (take_well _) fun more => readsWell_ite (fun _ => ?_) fun _ => by simp
    exact readsWell_bind (nodeUnless_well reads _ _) fun _ => by simp [ih]

theorem flushItems_well (steps : Nat) : ReadsWell (flushItems inner steps) := by
  induction steps with
  | zero => simp [flushItems]
  | succ steps ih =>
    refine readsWell_bind (take_well _) fun more => readsWell_ite (fun _ => ?_) fun _ => by simp
    exact readsWell_bind (nodeUnless_well reads _ _) fun _ => by simp [ih]

/-- A key, its value, and what is read behind them. -/
theorem entry_well {keyPlace valuePlace : Place} {keyEnds valueEnds : List Token}
    {later : Yaml.Node → Yaml.Node → Reads α} (reads' : ∀ key value, ReadsWell (later key value)) :
    ReadsWell (do
      let key ← nodeUnless inner keyPlace keyEnds
      let value ← valueUnless inner valuePlace valueEnds
      later key value) :=
  readsWell_bind (nodeUnless_well reads _ _) fun key =>
    readsWell_bind (valueUnless_well reads _ _) fun value => reads' key value

theorem blockEntries_well (steps : Nat) : ReadsWell (blockEntries inner steps) := by
  induction steps with
  | zero => simp [blockEntries]
  | succ steps ih =>
    refine readsWell_bind (take_well _) fun more => readsWell_ite (fun _ => ?_) fun _ => by simp
    exact entry_well reads fun _ _ => by simp [ih]

theorem flowItems_well (steps : Nat) (isFirst : Bool) : ReadsWell (flowItems inner steps isFirst) := by
  induction steps generalizing isFirst with
  | zero => simp [flowItems]
  | succ steps ih =>
    have item : ReadsWell (do
        if ← take? .key then
          let key ← nodeUnless inner .flow [.value, .comma, .closeList]
          let value ← valueUnless inner .flow [.comma, .closeList]
          return .map .map [(key, value)] :: (← flowItems inner steps false)
        else if ← take? .closeList then return []
        else
          let item ← inner .flow
          return item :: (← flowItems inner steps false)) := by
      refine readsWell_bind (take_well _) fun keyed => readsWell_ite (fun _ => ?_) fun _ => ?_
      · exact entry_well reads fun _ _ => by simp [ih]
      · refine readsWell_bind (take_well _) fun closed => readsWell_ite (fun _ => by simp) fun _ => ?_
        exact readsWell_bind (reads _) fun _ => by simp [ih]
    refine readsWell_bind (take_well _) fun closed => readsWell_ite (fun _ => by simp) fun _ => ?_
    exact readsWell_ite (fun _ => readsWell_bind (expect_well _) fun _ => item) fun _ => item

theorem flowEntries_well (steps : Nat) (isFirst : Bool) : ReadsWell (flowEntries inner steps isFirst) := by
  induction steps generalizing isFirst with
  | zero => simp [flowEntries]
  | succ steps ih =>
    have entry : ReadsWell (do
        if ← take? .key then
          let key ← nodeUnless inner .flow [.value, .comma, .closeMap]
          let value ← valueUnless inner .flow [.comma, .closeMap]
          return (key, value) :: (← flowEntries inner steps false)
        else if ← take? .closeMap then return []
        else
          let key ← inner .flow
          return (key, .empty) :: (← flowEntries inner steps false)) := by
      refine readsWell_bind (take_well _) fun keyed => readsWell_ite (fun _ => ?_) fun _ => ?_
      · exact entry_well reads fun _ _ => by simp [ih]
      · refine readsWell_bind (take_well _) fun closed => readsWell_ite (fun _ => by simp) fun _ => ?_
        exact readsWell_bind (reads _) fun _ => by simp [ih]
    refine readsWell_bind (take_well _) fun closed => readsWell_ite (fun _ => by simp) fun _ => ?_
    exact readsWell_ite (fun _ => readsWell_bind (expect_well _) fun _ => entry) fun _ => entry

theorem content_well (place : Place) (p : Properties) : ReadsWell (content inner place p) := by
  unfold content
  refine readsWell_bind tokenCount_well fun steps => readsWell_bind next_well fun token => ?_
  refine readsWell_ite (fun _ => by simp [flushItems_well reads]) fun _ => ?_
  split
  · simp
  · simp [flowItems_well reads]
  · simp [flowEntries_well reads]
  · exact readsWell_unless (by simp [blockItems_well reads])
  · exact readsWell_unless (by simp [blockEntries_well reads])
  · simp

end Collections

theorem nodeAt_well (depth : Nat) (place : Place) : ReadsWell (nodeAt depth place) := by
  induction depth generalizing place with
  | zero => simp [nodeAt]
  | succ depth ih =>
    unfold nodeAt
    refine readsWell_bind next_well fun token => ?_
    split
    · simp [find_well]
    · refine readsWell_bind properties_well fun p => ?_
      split
      · exact content_well ih place p
      · refine readsWell_bind (announce_well _) fun _ => readsWell_bind (content_well ih _ _) fun node => ?_
        simp [bind_well]

theorem directives_well (steps : Nat) (hasVersion : Bool) (given : List (String × String)) :
    ReadsWell (directives steps hasVersion given) := by
  induction steps generalizing hasVersion given with
  | zero => simp [directives]
  | succ steps ih =>
    unfold directives
    refine readsWell_bind next_well fun token => ?_
    split
    · exact readsWell_unless (by simp [ih])
    · exact readsWell_unless (by simp [ih])
    · simp [ih]
    · simp

theorem explicitDocument_well : ReadsWell explicitDocument := by
  unfold explicitDocument
  refine readsWell_bind tokenCount_well fun _ => readsWell_bind (directives_well _ _ _) fun _ => ?_
  refine readsWell_bind (expect_well _) fun _ => readsWell_bind next_well fun token => ?_
  split <;> simp [nodeAt_well]

theorem document_well : ReadsWell document? := by
  have ends (steps : Nat) : ReadsWell (skipEnds steps) := by
    induction steps with
    | zero => simp [skipEnds]
    | succ steps ih => simp [skipEnds, ih]
  unfold document?
  extract_lets finish
  have finished (node?) : ReadsWell (finish node?) := by
    refine readsWell_bind tokenCount_well fun _ => readsWell_bind (ends _) fun _ => ?_
    exact readsWell_bind next_well fun _ => readsWell_unless (readsWell_pure _)
  refine readsWell_bind next_well fun token => ?_
  split <;> simp [explicitDocument_well, nodeAt_well, finished]

theorem ofTokens_ends (text : List Char) : EndsWell (Yaml.Node.ofTokens? (.ofText text)) :=
  endsWell_map.mpr (document_well _ fun _ => tokens_stopping text).1

/-! ## Values of texts -/

/-- The result is an answer or a fault that stops the reader. -/
abbrev FaultsWell (x : Except Fault α) : Prop := Ends (fun _ => True) Stops x

/-- The value of a text, without a key twice, or a fault that stops the reader. -/
abbrev ScalarWell (x : Except Fault Value) : Prop := Ends (fun v => hasUniqueKeys v = true) Stops x

theorem looseInt_faults (base : Nat) (text : List Char) : FaultsWell (Decimal.looseInt base text) := by
  unfold Decimal.looseInt
  dsimp only
  split
  · exact .error (by simp [Stops, Fault.category])
  · split
    · exact .error (by simp [Stops, Fault.category])
    · exact .ok trivial

theorem looseFloat_faults (text : List Char) : FaultsWell (Decimal.looseFloat text) := by
  unfold Decimal.looseFloat
  dsimp only
  split
  · exact .ok trivial
  · exact .error (by simp [Stops, Fault.category])

theorem intOf_scalar (text : String) : ScalarWell (intOf text) := by
  have unsigned (chars : List Char) : FaultsWell (unsignedInt chars) := by
    unfold unsignedInt
    split
    · exact .error (by simp [Stops, Fault.category])
    · exact .ok trivial
    · exact looseInt_faults _ _
    · exact looseInt_faults _ _
    · split
      · exact looseInt_faults _ _
      · exact ends_bind (ends_mapM _ fun part _ => looseInt_faults 10 part) fun _ _ => .ok trivial
  unfold intOf
  split
  · exact .error (by simp [Stops, Fault.category])
  · exact ends_bind (unsigned _) fun _ _ => .ok rfl

theorem floatOf_scalar (text : String) : ScalarWell (floatOf text) := by
  have unsigned (chars : List Char) : FaultsWell (unsignedFloat chars) := by
    unfold unsignedFloat
    split
    · exact .ok trivial
    · split
      · exact .ok trivial
      · split
        · exact ends_bind (ends_mapM _ fun part _ => looseFloat_faults part) fun _ _ => .ok trivial
        · exact looseFloat_faults _
  unfold floatOf
  split
  · exact .error (by simp [Stops, Fault.category])
  · exact ends_bind (unsigned _) fun _ _ => .ok rfl

theorem timestampOf_scalar (text : String) : ScalarWell (timestampOf text) := by
  have dated {α : Type} (x : Except CalendarError α) {f : α → Value} (scalar : ∀ a, hasUniqueKeys (f a) = true) :
      ScalarWell ((x.map f).mapError Fault.calendar) := by
    cases x with
    | ok a => exact .ok (scalar a)
    | error e => exact .error (by simp [Stops, Fault.category])
  unfold timestampOf
  split
  · unfold Timestamp.value
    split
    · exact dated _ fun _ => rfl
    · exact dated _ fun _ => rfl
  · exact .error (by simp [Stops, Fault.category])

theorem boolOf_scalar (text : String) : ScalarWell (boolOf text) := by
  unfold boolOf
  dsimp only
  split
  · exact .ok rfl
  · split
    · exact .ok rfl
    · exact .error (by simp [Stops, Fault.category])

/-- The value of a text has no key twice, if there is one. -/
theorem textValue_ends (tag : Tag) (text : String) : EndsWell (textValue tag text) ∧
    ∀ v, textValue tag text = .ok v → hasUniqueKeys v = true := by
  have scalar {x : Except Fault Value} (well : ScalarWell x) :
      EndsWell (ofFault x) ∧ ∀ v, ofFault x = .ok v → hasUniqueKeys v = true := by
    cases well with
    | ok plain => exact ⟨endsWell_ok _, fun _ same => by cases same; exact plain⟩
    | error stops => exact ⟨(endsWell_error _).mpr stops, nofun⟩
  cases tag with
  | bool => exact scalar (boolOf_scalar text)
  | int => exact scalar (intOf_scalar text)
  | float => exact scalar (floatOf_scalar text)
  | timestamp => exact scalar (timestampOf_scalar text)
  | binary =>
    change EndsWell (binaryOf text) ∧ ∀ v, binaryOf text = .ok v → hasUniqueKeys v = true
    unfold binaryOf
    split
    · split
      · exact ⟨endsWell_ok _, fun _ same => by cases same; rfl⟩
      · exact ⟨endsWell_malformed, nofun⟩
    · exact ⟨endsWell_malformed, nofun⟩
  | null | str => exact ⟨endsWell_ok _, fun _ same => by cases same; rfl⟩
  | _ => exact ⟨endsWell_malformed, nofun⟩

/-! ## Values of nodes -/

/-- A value under construction, or a stopping refusal inside it. -/
def BuildsWell (x : Built α) : Prop := ∀ n r, x = .error (n, r) → Stopping r

theorem buildsWell_ok (a : α) : BuildsWell (.ok a : Built α) := nofun

theorem buildsWell_here (ends : EndsWell x) : BuildsWell (Built.here x) := by
  cases x with
  | ok a => exact buildsWell_ok a
  | error r =>
    intro n r' same
    cases same
    exact ends r rfl

theorem buildsWell_inside {x : Built α} (well : BuildsWell x) : BuildsWell (Built.inside x) := by
  cases x with
  | ok a => exact buildsWell_ok a
  | error e =>
    intro n r same
    cases same
    exact well e.1 e.2 rfl

theorem buildsWell_map {x : Built α} (f : α → β) (well : BuildsWell x) : BuildsWell (x.map f) := by
  cases x with
  | ok a => exact buildsWell_ok _
  | error e => exact fun n r same => well n r (by cases same; rfl)

theorem buildsWell_bind {x : Built α} {f : α → Built β} (first : BuildsWell x)
    (second : ∀ a, x = .ok a → BuildsWell (f a)) : BuildsWell (x >>= f) := by
  cases x with
  | ok a => exact second a rfl
  | error e => exact fun n r same => first n r (by cases same; rfl)

theorem buildsWell_both {x : Built α} {y : Built β} (first : BuildsWell x) (second : BuildsWell y) :
    BuildsWell (Built.both x y) := by
  cases x with
  | ok a =>
    cases y with
    | ok b => exact buildsWell_ok _
    | error f => exact fun n r same => second n r (by cases same; rfl)
  | error e =>
    cases y with
    | ok b => exact fun n r same => first n r (by cases same; rfl)
    | error f =>
      intro n r same
      simp only [Built.both, Except.error.injEq] at same
      split at same
      · exact second n r (by rw [same])
      · exact first n r (by rw [same])

theorem buildsWell_all {xs : List (Built α)} (each : ∀ x ∈ xs, BuildsWell x) : BuildsWell (Built.all xs) := by
  induction xs with
  | nil => exact buildsWell_ok _
  | cons x rest ih =>
    obtain ⟨first, later⟩ := List.forall_mem_cons.mp each
    exact buildsWell_map _ (buildsWell_both first (ih later))

theorem buildsWell_asKey {x : Built Value} (well : BuildsWell x) : BuildsWell x.asKey := by
  rcases x with ⟨n, r⟩ | v
  · cases n with
    | zero => exact fun n' r' same => by cases same; exact well 0 r rfl
    | succ n => exact fun n' r' same => by cases same; trivial
  · unfold Built.asKey
    cases v <;> first | exact buildsWell_ok _ | exact fun n r same => by cases same; trivial

/-- Both parts of an entry are built well. -/
def EntryWell (entry : Entry) : Prop := BuildsWell entry.1 ∧ BuildsWell entry.2

theorem mapOf_well {entries : List Entry} (each : ∀ entry ∈ entries, EntryWell entry) :
    BuildsWell (mapOf entries) := by
  refine buildsWell_map _ (buildsWell_all fun x member => ?_)
  obtain ⟨entry, listed, rfl⟩ := List.mem_map.mp member
  exact buildsWell_both (buildsWell_asKey (each entry listed).1) (each entry listed).2

/-- Entries are found that are built well, or there is a stopping refusal. -/
def GivesWell {γ : Type} (entriesIn : γ → List Entry) (x : Result γ) : Prop :=
  EndsWell x ∧ ∀ a, x = .ok a → ∀ entry ∈ entriesIn a, EntryWell entry

theorem givesWell_bind {γ δ : Type} {entriesIn : γ → List Entry} {entriesOut : δ → List Entry}
    {x : Result γ} {f : γ → Result δ} (first : GivesWell entriesIn x)
    (second : ∀ a, (∀ entry ∈ entriesIn a, EntryWell entry) → GivesWell entriesOut (f a)) :
    GivesWell entriesOut (x >>= f) := by
  cases x with
  | ok a => exact second a (first.2 a rfl)
  | error r => exact ⟨(endsWell_error r).mpr (first.1 r rfl), nofun⟩

mutual

theorem valueOf_well : (node : Yaml.Node) → BuildsWell (valueOf node)
  | .scalar tag text => by
    unfold valueOf
    split
    · exact buildsWell_inside (buildsWell_here endsWell_malformed)
    · exact buildsWell_here (textValue_ends tag text).1
  | .list tag items => by
    unfold valueOf
    split
    · exact buildsWell_inside (buildsWell_map _ (buildsWell_all (valuesOf_well items)))
    · exact buildsWell_inside (buildsWell_map _ (buildsWell_all (pairsOf_well items)))
    · exact buildsWell_inside (buildsWell_map _ (buildsWell_all (pairsOf_well items)))
    · exact buildsWell_inside (buildsWell_here endsWell_malformed)
    · exact buildsWell_inside (buildsWell_here endsWell_malformed)
    · exact buildsWell_here endsWell_malformed
  | .map tag entries => by
    have given := entriesOf_well entries
    have built (f : List (Value × Value) → Value) :
        BuildsWell (do return f (← mapOf (← Built.here (entriesOf entries)).all)) := by
      refine buildsWell_bind (buildsWell_here given.1) fun a found => ?_
      cases read : entriesOf entries with
      | error r =>
        rw [read] at found
        cases found
      | ok found' =>
        rw [read] at found
        cases found
        exact buildsWell_bind (mapOf_well (given.2 _ read)) fun _ _ => buildsWell_ok _
    unfold valueOf
    split
    · exact buildsWell_inside (built Value.map)
    · exact buildsWell_inside (built fun pairs => .set (pairs.map Prod.fst))
    · exact buildsWell_inside (buildsWell_here endsWell_malformed)
    · exact buildsWell_inside (buildsWell_here endsWell_malformed)
    · exact buildsWell_inside (buildsWell_here endsWell_malformed)
    · split
      · exact buildsWell_here (textValue_ends _ _).1
      · exact buildsWell_here endsWell_malformed

theorem valuesOf_well : (nodes : List Yaml.Node) → ∀ x ∈ valuesOf nodes, BuildsWell x
  | [] => by simp [valuesOf]
  | node :: rest => by
    rw [valuesOf]
    exact List.forall_mem_cons.mpr ⟨valueOf_well node, valuesOf_well rest⟩

theorem pairsOf_well : (nodes : List Yaml.Node) → ∀ x ∈ pairsOf nodes, BuildsWell x
  | [] => by simp [pairsOf]
  | node :: rest => by
    rw [pairsOf]
    exact List.forall_mem_cons.mpr ⟨pairOf_well node, pairsOf_well rest⟩

theorem pairOf_well : (node : Yaml.Node) → BuildsWell (pairOf node)
  | .map tag [(key, value)] => by
    rw [pairOf]
    exact buildsWell_map _ (buildsWell_both (valueOf_well key) (valueOf_well value))
  | .scalar _ _ | .list _ _ | .map _ [] | .map _ (_ :: _ :: _) => by
    simp only [pairOf]
    exact buildsWell_here endsWell_malformed

theorem entriesOf_well : (entries : List (Yaml.Node × Yaml.Node)) → GivesWell Entries.all (entriesOf entries)
  | [] => by
    rw [entriesOf]
    exact ⟨endsWell_ok _, fun _ same => by cases same; simp [Entries.all]⟩
  | (key, value) :: rest => by
    have later := entriesOf_well rest
    have taken := takenFrom_well value
    unfold entriesOf
    split
    · refine givesWell_bind taken fun first firstWell => givesWell_bind later fun others othersWell => ?_
      refine ⟨endsWell_ok _, fun _ same => ?_⟩
      cases same
      simp only [Entries.all, List.append_assoc] at othersWell ⊢
      exact List.forall_mem_append.mpr ⟨firstWell, othersWell⟩
    · refine givesWell_bind later fun others othersWell => ⟨endsWell_ok _, fun _ same => ?_⟩
      cases same
      obtain ⟨takenWell, ownWell⟩ := List.forall_mem_append.mp othersWell
      refine List.forall_mem_append.mpr ⟨takenWell, List.forall_mem_cons.mpr ⟨⟨?_, valueOf_well value⟩, ownWell⟩⟩
      dsimp only
      split
      · refine buildsWell_here ?_
        cases textOf? key <;> simp
      · exact valueOf_well key

theorem takenFrom_well : (node : Yaml.Node) → GivesWell id (takenFrom node)
  | .map tag entries => by
    rw [takenFrom]
    exact givesWell_bind (entriesOf_well entries) fun own ownWell =>
      ⟨endsWell_ok _, fun _ same => by cases same; exact ownWell⟩
  | .list tag items => by
    rw [takenFrom]
    exact takenFromEach_well items
  | .scalar _ _ => by
    rw [takenFrom]
    exact ⟨endsWell_malformed, nofun⟩

theorem takenFromEach_well : (nodes : List Yaml.Node) → GivesWell id (takenFromEach nodes)
  | [] => by
    rw [takenFromEach]
    exact ⟨endsWell_ok _, fun _ same => by cases same; simp⟩
  | .map tag entries :: rest => by
    rw [takenFromEach]
    refine givesWell_bind (entriesOf_well entries) fun first firstWell => ?_
    refine givesWell_bind (takenFromEach_well rest) fun others othersWell => ⟨endsWell_ok _, fun _ same => ?_⟩
    cases same
    exact List.forall_mem_append.mpr ⟨othersWell, firstWell⟩
  | .scalar _ _ :: _ | .list _ _ :: _ => by
    rw [takenFromEach]
    · exact ⟨endsWell_malformed, nofun⟩
    · simp

end

/-- Whatever stops the reader of a document has to do with the document alone. -/
theorem read_ends (text : String) : EndsWell (Yaml.read text) := by
  refine endsWell_bind.mpr ⟨ofTokens_ends text.toList, fun node? _ => ?_⟩
  cases node? with
  | none => exact endsWell_ok _
  | some node =>
    have built := valueOf_well node
    intro r stopped
    cases value : valueOf node with
    | ok v => simp [value, Except.mapError] at stopped
    | error e =>
      simp only [value, Except.mapError, Except.error.injEq] at stopped
      exact stopped ▸ built e.1 e.2 value

end MethodLint.DocumentReading
