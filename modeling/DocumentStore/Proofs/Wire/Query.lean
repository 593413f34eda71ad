import DocumentStore.Proofs.Query.Reversal
import DocumentStore.Proofs.Wire.Value
import DocumentStore.Wire.Query

/-! # What a remote store reads

The reader of structured queries that a remote store has: clauses, an ordering, a limit from the front
and cursors whose flag puts them before or after the documents at their position. Of a query that can
be sent it reads the form that counts from the front. -/

namespace DocumentStore

namespace Entries

variable {α : Type} {key : String}

private theorem find?_append (a b : Entries α) :
    find? key (a ++ b) = (find? key a).or (find? key b) := by
  induction a with
  | nil => rfl
  | cons entry a ih =>
    obtain ⟨k, v⟩ := entry
    rw [List.cons_append, find?, find?]
    split
    · rfl
    · exact ih

theorem find?_ofList (key : String) (entries : List (String × α)) :
    find? key (ofList entries) = find? key entries.reverse := by
  obtain ⟨reversed, rfl⟩ : ∃ l, entries = l.reverse := ⟨entries.reverse, by simp⟩
  induction reversed with
  | nil => rfl
  | cons entry rest ih =>
    obtain ⟨k, v⟩ := entry
    have last : ofList ((k, v) :: rest).reverse = insert k v (ofList rest.reverse) := by
      rw [ofList, List.reverse_cons, List.foldl_append]
      rfl
    rw [last, List.reverse_reverse, find?]
    split
    · rename_i same
      rw [same, find?_insert_self]
    · rename_i ne
      rw [find?_insert_of_ne (Ne.symm ne), ih, List.reverse_reverse]

/-- The entry with an optional value. -/
def optional (key : String) (content : Option α) : List (String × α) :=
  content.toList.map fun a => (key, a)

private theorem find?_optional_reverse (name : String) (content : Option α) :
    find? key (optional name content).reverse = if name = key then content else none := by
  cases content with
  | none => simp [optional]
  | some a => simp [optional, find?]

end Entries

namespace FieldPath

/-- Tells the paths that are given by a text with dots. -/
def Dotted (path : FieldPath) : Prop := ∃ text, ofString text = .ok path

theorem Dotted.ofString_text {path : FieldPath} (dotted : path.Dotted) :
    ofString path.text = .ok path := by
  obtain ⟨text, read⟩ := dotted
  have same : path.text = text := by
    unfold ofString at read
    split at read
    · cases read
    · unfold new at read
      split at read
      · cases read
      · split at read
        · cases read
        · cases read
          exact Text.join_split '.' text
  rw [same, read]

end FieldPath

namespace Wire

/-- A member that is a text. -/
def readText? (name : String) (j : Json) : Option String :=
  match j.member? name with
  | some (.string s) => some s
  | _ => none

/-- The field that a member refers to. -/
def readField? (j : Json) : Option FieldPath := do
  let reference ← j.member? "field"
  let text ← readText? "fieldPath" reference
  (FieldPath.ofString text).toOption

/-- What the name of a unary operator stands for. -/
def readUnary? : String → Option (FilterOperator × Value)
  | "IS_NULL" => some (.equal, .null)
  | "IS_NOT_NULL" => some (.notEqual, .null)
  | "IS_NAN" => some (.equal, .double .nan)
  | "IS_NOT_NAN" => some (.notEqual, .double .nan)
  | _ => none

def readClause? (j : Json) : Option FieldFilter :=
  match j.member? "unaryFilter" with
  | some clause => do
    let field ← readField? clause
    let name ← readText? "op" clause
    let (operator, operand) ← readUnary? name
    return ⟨field, operator, operand⟩
  | none => do
    let clause ← j.member? "fieldFilter"
    let field ← readField? clause
    let name ← readText? "op" clause
    let operator ← FilterOperator.ofName? name
    let value ← clause.member? "value"
    let operand ← (decodeValue value).toOption
    return ⟨field, operator, operand⟩

def readArray? {α : Type} (read : Json → Option α) : Json → Option (List α)
  | .array items => items.mapM read
  | _ => none

/-- Several clauses that all have to hold, or a single one. -/
def readClauses? (j : Json) : Option (List FieldFilter) :=
  match j.member? "compositeFilter" with
  | some composite => do
    guard (readText? "op" composite = some "AND")
    let filters ← composite.member? "filters"
    readArray? readClause? filters
  | none => (readClause? j).map fun filter => [filter]

def readDirection? (name : String) : Option Direction :=
  [Direction.ascending, .descending].find? fun direction => direction.name == name

def readOrder? (j : Json) : Option OrderBy := do
  let field ← readField? j
  let name ← readText? "direction" j
  let direction ← readDirection? name
  return ⟨field, direction⟩

/-- A cursor. A start that is before the documents at its position includes them, and so does an end
that is not before them. -/
def readCursor? (start : Bool) (j : Json) : Option Bound :=
  match j.member? "before", j.member? "values" with
  | some (.bool before), some (.array items) => do
    let values ← (decodeList items).toOption
    return ⟨values, if start then before else !before⟩
  | _, _ => none

def readLimit? : Json → Option Nat
  | .int n => if 0 ≤ n then some n.toNat else none
  | _ => none

def readSource? : Json → Option String
  | .array [source] => readText? "collectionId" source
  | _ => none

/-- What a member that may be missing says. -/
def readOptional? {α : Type} (read : Json → Option α) : Option Json → Option (Option α)
  | none => some none
  | some j => (read j).map some

/-- A structured query over a collection below a path. -/
def readStructuredQuery? (parent : ResourcePath) (j : Json) : Option Query := do
  let source ← j.member? "from"
  let id ← readSource? source
  let filters ← readOptional? readClauses? (j.member? "where")
  let orders ← readOptional? (readArray? readOrder?) (j.member? "orderBy")
  let limit ← readOptional? readLimit? (j.member? "limit")
  let start ← readOptional? (readCursor? true) (j.member? "startAt")
  let stop ← readOptional? (readCursor? false) (j.member? "endAt")
  return {
    collection := parent.append [id]
    plan := {
      filters := filters.getD []
      orders := orders.getD []
      limit, limitSide := .first, offset := none, start, stop } }

end Wire

theorem Query.forward_eq {query : Query} (noOffset : query.plan.offset = none) :
    query.forward = {
      collection := query.collection
      plan := {
        filters := query.plan.filters
        orders := if query.plan.keepsLast then query.plan.orders.map OrderBy.flipped
          else query.plan.orders
        limit := query.plan.limit
        limitSide := .first
        offset := none
        start := if query.plan.keepsLast then query.plan.stop else query.plan.start
        stop := if query.plan.keepsLast then query.plan.start else query.plan.stop } } := by
  rw [forward, QueryPlan.forward, ← noOffset]
  cases query.plan.keepsLast <;> rfl

/-- A clause that travels without loss: not-a-number only in an equality or its negation. -/
structure FieldFilter.Portable (filter : FieldFilter) : Prop where
  field : filter.field.Dotted
  operand : filter.operand.isPortable ∨
    filter.operand = .double .nan ∧ (filter.operator = .equal ∨ filter.operator = .notEqual)

/-- A query whose fields are given by texts and whose operands and cursors travel without loss. -/
structure Query.Portable (query : Query) : Prop where
  filters : ∀ filter ∈ query.plan.filters, filter.Portable
  orders : ∀ order ∈ query.plan.orders, order.field.Dotted
  cursors : ∀ bound ∈ query.plan.bounds, Value.allPortable bound.values

namespace Wire

private theorem ofName?_name (operator : FilterOperator) :
    FilterOperator.ofName? operator.name = some operator := by
  cases operator <;> decide

private theorem readDirection?_name (direction : Direction) :
    readDirection? direction.name = some direction := by
  cases direction <;> decide

theorem toOption_eq_some {ε α : Type} {x : Except ε α} {a : α} (h : x = .ok a) :
    x.toOption = some a := by
  rw [h]
  rfl

theorem readField?_of_member {path : FieldPath} (dotted : path.Dotted) {j : Json}
    (member : j.member? "field" = some (fieldReference path)) : readField? j = some path := by
  have text : readText? "fieldPath" (fieldReference path) = some path.text := rfl
  simp only [readField?, member, Option.bind_eq_bind, Option.bind_some, text]
  exact toOption_eq_some dotted.ofString_text

theorem readUnary?_unaryName {filter : FieldFilter} {name : String}
    (unary : unaryName? filter = some name) :
    readUnary? name = some (filter.operator, filter.operand) := by
  unfold unaryName? at unary
  split at unary
  · rename_i operator operand
    cases unary
    rw [operator, operand]
    rfl
  · rename_i operator operand
    cases unary
    rw [operator, operand]
    rfl
  · rename_i operator operand
    cases unary
    rw [operator, operand]
    rfl
  · rename_i operator operand
    cases unary
    rw [operator, operand]
    rfl
  · cases unary

theorem isPortable_of_unaryName {filter : FieldFilter} (portable : filter.Portable)
    (binary : unaryName? filter = none) : filter.operand.isPortable := by
  obtain portable | ⟨operand, operator⟩ := portable.operand
  · exact portable
  · rcases operator with operator | operator <;> simp [unaryName?, operator, operand] at binary

theorem readClause?_encodeFilter {filter : FieldFilter} (portable : filter.Portable) :
    ∃ j, encodeFilter filter = .ok j ∧ readClause? j = some filter ∧
      j.member? "compositeFilter" = none := by
  unfold encodeFilter
  cases unary : unaryName? filter with
  | some name =>
    let clause := Json.object [("field", fieldReference filter.field), ("op", .string name)]
    have member : (Json.object [("unaryFilter", clause)]).member? "unaryFilter" = some clause := rfl
    have field : readField? clause = some filter.field := readField?_of_member portable.field rfl
    have op : readText? "op" clause = some name := rfl
    refine ⟨.object [("unaryFilter", clause)], rfl, ?_, rfl⟩
    simp only [readClause?, member, field, op, readUnary?_unaryName unary, Option.bind_eq_bind,
      Option.bind_some]
    rfl
  | none =>
    obtain ⟨value, written, read⟩ :=
      decodeValue_encodeValue _ (isPortable_of_unaryName portable unary)
    let clause := Json.object [("field", fieldReference filter.field),
      ("op", .string filter.operator.name), ("value", value)]
    have notUnary : (Json.object [("fieldFilter", clause)]).member? "unaryFilter" = none := rfl
    have member : (Json.object [("fieldFilter", clause)]).member? "fieldFilter" = some clause := rfl
    have field : readField? clause = some filter.field := readField?_of_member portable.field rfl
    have op : readText? "op" clause = some filter.operator.name := rfl
    have operand : clause.member? "value" = some value := rfl
    refine ⟨.object [("fieldFilter", clause)], by rw [written]; rfl, ?_, rfl⟩
    simp only [readClause?, notUnary, member, field, op, ofName?_name, operand,
      toOption_eq_some read, Option.bind_eq_bind, Option.bind_some]
    rfl

private theorem readOrder?_encodeOrder {order : OrderBy} (dotted : order.field.Dotted)
    (reversed : Bool) :
    readOrder? (encodeOrder reversed order) = some (if reversed then order.flipped else order) := by
  obtain ⟨direction, hdirection⟩ : ∃ d,
      d = if reversed then order.direction.flipped else order.direction := ⟨_, rfl⟩
  have written : encodeOrder reversed order = .object
      [("direction", .string direction.name), ("field", fieldReference order.field)] := by
    rw [hdirection]
    rfl
  have field : readField? (encodeOrder reversed order) = some order.field :=
    readField?_of_member dotted (by rw [written]; rfl)
  have name : readText? "direction" (encodeOrder reversed order) = some direction.name := by
    rw [written]
    rfl
  simp only [readOrder?, field, name, readDirection?_name, Option.bind_eq_bind, Option.bind_some]
  rw [hdirection]
  cases reversed <;> rfl

private theorem readCursor?_encodeCursor {bound : Bound} (portable : Value.allPortable bound.values)
    (start : Bool) :
    ∃ j, encodeCursor start bound = .ok j ∧ readCursor? start j = some bound := by
  obtain ⟨items, written, read⟩ := decodeList_encodeList _ portable
  let before := if start then bound.inclusive else !bound.inclusive
  let cursor := Json.object [("before", .bool before), ("values", .array items)]
  have flag : cursor.member? "before" = some (.bool before) := rfl
  have values : cursor.member? "values" = some (.array items) := rfl
  refine ⟨cursor, by rw [encodeCursor, written]; rfl, ?_⟩
  simp only [readCursor?, flag, values, toOption_eq_some read, Option.bind_eq_bind, Option.bind_some,
    before]
  cases start
  · simp
  · simp

private theorem mapM_readClause_encodeFilter {filters : List FieldFilter}
    (portable : ∀ filter ∈ filters, filter.Portable) :
    ∃ items, filters.mapM encodeFilter = .ok items ∧ items.mapM readClause? = some filters := by
  induction filters with
  | nil => exact ⟨[], rfl, rfl⟩
  | cons filter filters ih =>
    rw [List.forall_mem_cons] at portable
    obtain ⟨item, writtenItem, readItem, -⟩ := readClause?_encodeFilter portable.1
    obtain ⟨items, written, read⟩ := ih portable.2
    refine ⟨item :: items, ?_, ?_⟩
    · rw [List.mapM_cons, writtenItem, written]
      rfl
    · rw [List.mapM_cons, readItem, read]
      rfl

theorem readClauses?_encodeFilters {filters : List FieldFilter}
    (portable : ∀ filter ∈ filters, filter.Portable) (nonempty : filters ≠ []) :
    ∃ j, encodeFilters filters = .ok j ∧ readClauses? j = some filters := by
  match filters with
  | [] => exact absurd rfl nonempty
  | [filter] =>
    obtain ⟨j, written, read, single⟩ :=
      readClause?_encodeFilter (portable filter (List.mem_singleton.mpr rfl))
    refine ⟨j, written, ?_⟩
    rw [readClauses?, single, read]
    rfl
  | first :: second :: rest =>
    obtain ⟨items, written, read⟩ := mapM_readClause_encodeFilter portable
    let composite := Json.object [("filters", .array items), ("op", .string "AND")]
    have member : (Json.object [("compositeFilter", composite)]).member? "compositeFilter"
        = some composite := rfl
    have op : readText? "op" composite = some "AND" := rfl
    have clauses : composite.member? "filters" = some (.array items) := rfl
    refine ⟨.object [("compositeFilter", composite)], ?_, ?_⟩
    · rw [encodeFilters, written]
      · rfl
      · simp
    · simp only [readClauses?, member, op, clauses, guard, if_true, Option.bind_eq_bind,
        Option.bind_some]
      exact read

private theorem mapM_readOrder_encodeOrder {orders : List OrderBy}
    (dotted : ∀ order ∈ orders, order.field.Dotted) (reversed : Bool) :
    (orders.map (encodeOrder reversed)).mapM readOrder?
      = some (if reversed then orders.map OrderBy.flipped else orders) := by
  induction orders with
  | nil => cases reversed <;> rfl
  | cons order orders ih =>
    rw [List.forall_mem_cons] at dotted
    rw [List.map_cons, List.mapM_cons, readOrder?_encodeOrder dotted.1, ih dotted.2]
    cases reversed <;> rfl

open Entries

theorem exists_clauses {filters : List FieldFilter}
    (portable : ∀ filter ∈ filters, filter.Portable) :
    ∃ content found,
      optionalMember "where" (if filters.isEmpty then none else some (encodeFilters filters))
        = .ok (optional "where" content) ∧
      readOptional? readClauses? content = some found ∧ found.getD [] = filters := by
  cases filters with
  | nil => exact ⟨none, none, rfl, rfl, rfl⟩
  | cons filter filters =>
    obtain ⟨j, written, read⟩ := readClauses?_encodeFilters portable (List.cons_ne_nil _ _)
    refine ⟨some j, some (filter :: filters), ?_, ?_, rfl⟩
    · rw [List.isEmpty_cons, if_neg Bool.false_ne_true, written]
      rfl
    · rw [readOptional?, read]
      rfl

theorem exists_orders {orders : List OrderBy} (dotted : ∀ order ∈ orders, order.field.Dotted)
    (reversed : Bool) :
    ∃ content found,
      (if orders.isEmpty then []
        else [("orderBy", Json.array (orders.map (encodeOrder reversed)))])
        = optional "orderBy" content ∧
      readOptional? (readArray? readOrder?) content = some found ∧
      found.getD [] = if reversed then orders.map OrderBy.flipped else orders := by
  cases orders with
  | nil => exact ⟨none, none, rfl, rfl, by cases reversed <;> rfl⟩
  | cons order orders =>
    have read := mapM_readOrder_encodeOrder dotted reversed
    refine ⟨some (.array ((order :: orders).map (encodeOrder reversed))), some _, rfl, ?_, rfl⟩
    rw [readOptional?, readArray?, read]
    rfl

theorem exists_cursor (name : String) (start : Bool) (bound : Option Bound)
    (portable : ∀ b ∈ bound, Value.allPortable b.values) :
    ∃ content,
      optionalMember name (bound.map (encodeCursor start)) = .ok (optional name content) ∧
      readOptional? (readCursor? start) content = some bound := by
  cases bound with
  | none => exact ⟨none, rfl, rfl⟩
  | some b =>
    obtain ⟨j, written, read⟩ := readCursor?_encodeCursor (portable b rfl) start
    refine ⟨some j, ?_, ?_⟩
    · rw [Option.map_some, written]
      rfl
    · rw [readOptional?, read]
      rfl

private theorem readOptional?_limit (limit : Option Nat) :
    readOptional? readLimit? (limit.map fun n => Json.int (n : Nat)) = some limit := by
  cases limit <;> rfl

private theorem optional_limit (limit : Option Nat) :
    (limit.toList.map fun (n : Nat) => ("limit", Json.int (n : Nat)))
      = optional "limit" (limit.map fun n => Json.int (n : Nat)) := by
  cases limit <;> rfl

theorem append_collectionId {query : Query} (collection : Query.IsCollection query.collection) :
    query.collection.parent.append [query.collectionId] = query.collection := by
  obtain ⟨⟨segments⟩, plan⟩ := query
  have nonempty : segments ≠ [] := by
    rintro rfl
    cases collection
  simp only [ResourcePath.append, ResourcePath.parent, Query.collectionId, ResourcePath.last?,
    List.getLast?_eq_some_getLast nonempty, Option.getD_some, List.dropLast_concat_getLast]

/-- What a structured query consists of. -/
structure Parts where
  source : Json
  clauses : Option Json
  ordering : Option Json
  limit : Option Json
  start : Option Json
  stop : Option Json

namespace Parts

/-- The members in which the parts are written. -/
def members (parts : Parts) : List (String × Json) :=
  optional "from" (some parts.source) ++ optional "where" parts.clauses
    ++ optional "orderBy" parts.ordering ++ optional "limit" parts.limit
    ++ optional "startAt" parts.start ++ optional "endAt" parts.stop

/-- The part that is written under a name. -/
def part? (parts : Parts) : String → Option Json
  | "from" => some parts.source
  | "where" => parts.clauses
  | "orderBy" => parts.ordering
  | "limit" => parts.limit
  | "startAt" => parts.start
  | "endAt" => parts.stop
  | _ => none

/-- No two parts share a name, so each is found under its own. -/
theorem member?_members (parts : Parts) (name : String) :
    (Json.ofMembers parts.members).member? name = parts.part? name := by
  rw [show (Json.ofMembers parts.members).member? name = find? name parts.members.reverse from
    find?_ofList name parts.members]
  simp only [members, List.reverse_append, find?_append, find?_optional_reverse]
  fun_cases part? parts name with
  | case7 _ n1 n2 n3 n4 n5 n6 =>
    simp [Ne.symm n1, Ne.symm n2, Ne.symm n3, Ne.symm n4, Ne.symm n5, Ne.symm n6]
  | _ => simp

end Parts

theorem readStructuredQuery?_members {parts : Parts} {id : String}
    {filters : Option (List FieldFilter)} {orders : Option (List OrderBy)} {limit : Option Nat}
    {start stop : Option Bound} (source : readSource? parts.source = some id)
    (clauses : readOptional? readClauses? parts.clauses = some filters)
    (ordering : readOptional? (readArray? readOrder?) parts.ordering = some orders)
    (atMost : readOptional? readLimit? parts.limit = some limit)
    (first : readOptional? (readCursor? true) parts.start = some start)
    (last : readOptional? (readCursor? false) parts.stop = some stop) (parent : ResourcePath) :
    readStructuredQuery? parent (Json.ofMembers parts.members) = some {
      collection := parent.append [id]
      plan := {
        filters := filters.getD []
        orders := orders.getD []
        limit, limitSide := .first, offset := none, start, stop } } := by
  simp only [readStructuredQuery?, parts.member?_members, Parts.part?]
  simp only [source, clauses, ordering, atMost, first, last, Option.bind_eq_bind, Option.bind_some]
  rfl

/-- The structured query of a query that travels without loss is read as its forward form. -/
theorem readStructuredQuery?_encodeStructuredQuery {query : Query} (wellFormed : query.WellFormed)
    (noOffset : query.plan.offset = none) (portable : query.Portable) :
    ∃ j, encodeStructuredQuery query = .ok j ∧
      readStructuredQuery? query.collection.parent j = some query.forward := by
  have starts : ∀ b ∈ query.plan.start, Value.allPortable b.values := fun b here =>
    portable.cursors b (List.mem_append_left _ (Option.mem_toList.mpr here))
  have stops : ∀ b ∈ query.plan.stop, Value.allPortable b.values := fun b here =>
    portable.cursors b (List.mem_append_right _ (Option.mem_toList.mpr here))
  obtain ⟨clauses, filters, writtenClauses, readClauses, hfilters⟩ := exists_clauses portable.filters
  obtain ⟨ordering, orders, writtenOrders, readOrders, horders⟩ :=
    exists_orders portable.orders query.plan.keepsLast
  obtain ⟨start, writtenStart, readStart⟩ := exists_cursor "startAt" true
    (if query.plan.keepsLast then query.plan.stop else query.plan.start)
    (by split <;> assumption)
  obtain ⟨stop, writtenStop, readStop⟩ := exists_cursor "endAt" false
    (if query.plan.keepsLast then query.plan.start else query.plan.stop)
    (by split <;> assumption)
  let parts : Parts := {
    source := .array [.object [("collectionId", .string query.collectionId)]]
    limit := query.plan.limit.map fun n => Json.int (n : Nat)
    clauses, ordering, start, stop }
  have written : structuredMembers query = .ok parts.members := by
    simp only [structuredMembers, writtenClauses, writtenOrders, writtenStart, writtenStop,
      optional_limit]
    rfl
  refine ⟨Json.ofMembers parts.members, ?_, ?_⟩
  · simp only [encodeStructuredQuery, wellFormed.validate, noOffset, written]
    rfl
  · have source : readSource? parts.source = some query.collectionId := rfl
    rw [readStructuredQuery?_members source readClauses readOrders
      (readOptional?_limit query.plan.limit) readStart readStop, hfilters, horders,
      append_collectionId wellFormed.collection, Query.forward_eq noOffset]

end Wire

end DocumentStore
