import DocumentStore.Proofs.Path.Text
import DocumentStore.Proofs.Query.Cursors
import DocumentStore.Proofs.Value.Inside

/-! # Reading a result page by page

A query with a limit returns the first page of its result. The next page is asked for by a cursor at
the last document of the page before, given by the values of the document at the fields of the
ordering. Where the ordering ends with the reserved field no document ties with another, so the pages
put together are the result without the limit. -/

namespace DocumentStore

namespace Snapshot

/-- Tells the documents without a marker at any depth. -/
def isPlain (s : Snapshot) : Bool := s.fields?.all Value.allPlainFields

private theorem isSentinel_of_fieldValue? {s : Snapshot} {field : FieldPath} {v : Value}
    (plain : s.isPlain) (found : s.fieldValue? field = some v) : v.isSentinel = false := by
  unfold fieldValue? at found
  split at found
  · cases found
    rfl
  · obtain ⟨fields, hfields, hget⟩ := Option.bind_eq_some_iff.mp found
    rw [isPlain, hfields] at plain
    exact Value.isSentinel_of_isPlain <|
      Fields.of_get? (P := (Value.isPlain ·)) (fun _ => Value.allPlainFields_iff)
        (Value.allPlainFields_iff.mp plain) hget

end Snapshot

namespace OrderBy

/-- The value that a cursor at a document has for an ordering: for the reserved field the identifier of
the document. -/
def positionValue (order : OrderBy) (s : Snapshot) : Value :=
  if order.field.isDocumentId then .string s.key.id else order.value s

variable {order : OrderBy} {s t : Snapshot}

theorem value_of_isDocumentId (named : order.field.isDocumentId) :
    order.value s = .reference s.path := by
  rw [value, Snapshot.fieldValue?, if_pos named, Option.getD_some]

theorem cursorValue_positionValue (order : OrderBy) (inside : s.key.collection = t.key.collection)
    (unslashed : '/' ∉ t.key.id.toList) :
    order.cursorValue s (order.positionValue t) = order.value t := by
  unfold positionValue
  split
  · rename_i named
    rw [value_of_isDocumentId named, cursorValue, if_pos (by simp [named, unslashed]), inside,
      DocumentKey.collection_append_id]
    rfl
  · rename_i plain
    unfold cursorValue
    split
    · rename_i id hid
      rw [hid, if_neg (by simp [plain])]
    · rfl

theorem key_eq_of_compare (named : order.field.isDocumentId)
    (inside : s.key.collection = t.key.collection) (tie : order.compare s t = .eq) :
    s.key = t.key := by
  rw [compare, order.direction.apply_eq_eq, value_of_isDocumentId named,
    value_of_isDocumentId named, Value.order, Std.LawfulEqOrd.compare_eq_iff_eq] at tie
  exact DocumentKey.eq_of_text_of_collection inside tie

theorem isSentinel_positionValue (order : OrderBy) (plain : s.isPlain) :
    (order.positionValue s).isSentinel = false := by
  unfold positionValue
  split
  · rfl
  · unfold value
    cases found : s.fieldValue? order.field with
    | none => rfl
    | some v => exact Snapshot.isSentinel_of_fieldValue? plain found

end OrderBy

section Chain

variable {s t : Snapshot}

private theorem compareToBound_position (orders : List OrderBy)
    (inside : s.key.collection = t.key.collection) (unslashed : '/' ∉ t.key.id.toList) :
    compareToBound orders (orders.map fun order => order.positionValue t) s
      = compareByChain orders s t := by
  induction orders with
  | nil => rfl
  | cons order orders ih =>
    rw [List.map_cons, compareToBound, OrderBy.compareToCursor,
      order.cursorValue_positionValue inside unslashed, ih]
    rfl

/-- An ordering that ends with the reserved field leaves nothing to the paths. -/
theorem compareDocuments_eq_compareByChain {earlier : List OrderBy} {final : OrderBy}
    (named : final.field.isDocumentId) (inside : s.key.collection = t.key.collection) :
    compareDocuments (earlier ++ [final]) s t = compareByChain (earlier ++ [final]) s t := by
  rw [compareDocuments]
  cases chain : compareByChain (earlier ++ [final]) s t with
  | lt => rfl
  | gt => rfl
  | eq =>
    rw [compareByChain_append] at chain
    have tie := (Ordering.then_eq_eq.mp (Ordering.then_eq_eq.mp chain).2).1
    rw [OrderBy.key_eq_of_compare named inside tie]
    exact ResourcePath.order_eq_iff.mpr rfl

end Chain

namespace Query

/-- The values of a cursor at a document. -/
def position (query : Query) (s : Snapshot) : List Value :=
  query.plan.orders.map fun order => order.positionValue s

/-- The pages that come of a query with a limit of `n` documents, from one run on: another run starts
after the last document of a page unless the page has fewer than `n` documents. -/
inductive Pages (limited : Query) (n : Nat) (documents : List Snapshot) :
    Query → List (List Snapshot) → Prop where
  | last {current : Query} {page : List Snapshot} (ran : current.run documents = .ok page)
      (short : page.length < n) : Pages limited n documents current [page]
  | more {current next : Query} {page : List Snapshot} {pages : List (List Snapshot)}
      {s : Snapshot} (ran : current.run documents = .ok page) (full : n ≤ page.length)
      (ends : page.getLast? = some s)
      (resumed : limited.apply (.cursor .startAfter (limited.position s)) = .ok next)
      (rest : Pages limited n documents next pages) :
      Pages limited n documents current (page :: pages)

/-- The query for the page after a document. -/
def resumedAfter (limited : Query) (s : Snapshot) : Query :=
  limited.withBound .startAfter ⟨limited.position s, false⟩

section Resumed

variable {limited : Query} {s : Snapshot} {documents before after : List Snapshot}

private theorem apply_startAfter (ordered : limited.plan.orders ≠ []) (plain : s.isPlain) :
    limited.apply (.cursor .startAfter (limited.position s)) = .ok (limited.resumedAfter s) := by
  refine apply_cursor_eq_ok.mpr ⟨rfl, ?_, ?_, ?_⟩
  · exact List.map_eq_nil_iff.not.mpr ordered
  · exact (List.length_map _).le
  · exact List.forall_mem_map.mpr fun order _ => order.isSentinel_positionValue plain

private theorem matching_resumedAfter (unstarted : limited.plan.start = none) :
    (limited.resumedAfter s).matching documents
      = (limited.matching documents).filter fun t =>
          compareToBound limited.plan.orders (limited.position s) t == .gt :=
  matching_withBound .startAfter unstarted (limited.position s) documents

end Resumed

/-- A query that is read page by page: it has a limit and an ordering that ends with the reserved
field, and is not cut otherwise. -/
structure Paged (limited : Query) (n : Nat) : Prop where
  limit : limited.plan.limit = some n
  side : limited.plan.limitSide = .first
  offset : limited.plan.offset = none
  start : limited.plan.start = none
  stop : limited.plan.stop = none
  named : ∃ earlier order, limited.plan.orders = earlier ++ [order] ∧ order.field.isDocumentId

namespace Paged

variable {limited current : Query} {n : Nat} {documents before after remaining : List Snapshot}
  {s : Snapshot}

theorem ordered (paged : limited.Paged n) : limited.plan.orders ≠ [] := by
  obtain ⟨earlier, order, orders, -⟩ := paged.named
  rw [orders]
  exact List.append_ne_nil_of_right_ne_nil _ (List.cons_ne_nil _ _)

private theorem run_eq (paged : limited.Paged n) (documents : List Snapshot) :
    limited.run documents = .ok ((limited.matching documents).take n) := by
  have valid : limited.plan.validate = .ok () :=
    QueryPlan.validate_of_ordered paged.ordered (by simp [QueryPlan.bounds, paged.start, paged.stop])
  rw [Query.run_eq valid, QueryPlan.cut, paged.limit, paged.side, paged.offset]
  rfl

private theorem run_resumedAfter (paged : limited.Paged n) (s : Snapshot) (documents : List Snapshot) :
    (limited.resumedAfter s).run documents
      = .ok (((limited.resumedAfter s).matching documents).take n) := by
  have valid : (limited.resumedAfter s).plan.validate = .ok () := by
    refine QueryPlan.validate_of_ordered paged.ordered ?_
    simp [resumedAfter, withBound, CursorMethod.isStart, QueryPlan.bounds, paged.stop, position]
  have cut (found : List Snapshot) : (limited.resumedAfter s).plan.cut found = found.take n := by
    simp [resumedAfter, withBound, CursorMethod.isStart, QueryPlan.cut, paged.limit, paged.side,
      paged.offset]
  rw [Query.run_eq valid, cut]

section Documents

variable (distinct : (documents.map Snapshot.key).Nodup) (exact : ∀ s ∈ documents, s.isExact)

include distinct exact

/-- The query for the page after a matching document is about the matching documents that follow. -/
theorem matching_resumedAfter (paged : limited.Paged n) (unslashed : '/' ∉ s.key.id.toList)
    (split : limited.matching documents = before ++ s :: after) :
    (limited.resumedAfter s).matching documents = after := by
  obtain ⟨earlier, order, orders, named⟩ := paged.named
  have collection {t : Snapshot} (mem : t ∈ limited.matching documents) :
      t.key.collection = limited.collection := (mem_matching.mp mem).2.collection
  have mem : s ∈ limited.matching documents := split ▸ List.mem_append_right _ List.mem_cons_self
  have compared (t : Snapshot) (ht : t ∈ limited.matching documents) :
      (compareToBound limited.plan.orders (limited.position s) t == .gt)
        = (compareDocuments limited.plan.orders t s == .gt) := by
    have inside : t.key.collection = s.key.collection := (collection ht).trans (collection mem).symm
    rw [position, compareToBound_position _ inside unslashed, orders,
      compareDocuments_eq_compareByChain named inside]
  rw [Query.matching_resumedAfter paged.start, List.filter_congr compared, split]
  exact filter_gt_of_pairwise_lt (compareDocuments_swap _) (split ▸ pairwise_matching exact distinct)

variable (plain : ∀ s ∈ documents, s.isPlain) (unslashed : ∀ s ∈ documents, '/' ∉ s.key.id.toList)

include plain unslashed

theorem resumes (paged : limited.Paged n) (positive : 1 ≤ n) (full : n ≤ remaining.length)
    (split : limited.matching documents = before ++ remaining) :
    ∃ front s next, (remaining.take n).getLast? = some s ∧
      remaining = front ++ s :: remaining.drop n ∧
      limited.apply (.cursor .startAfter (limited.position s)) = .ok next ∧
      next.run documents = .ok ((remaining.drop n).take n) := by
  have nonempty : remaining.take n ≠ [] := by
    intro none
    have length := congrArg List.length none
    rw [List.length_take, List.length_nil] at length
    omega
  have rest : remaining = (remaining.take n).dropLast
      ++ (remaining.take n).getLast nonempty :: remaining.drop n := by
    rw [← List.singleton_append, ← List.append_assoc, List.dropLast_concat_getLast,
      List.take_append_drop]
  have onward : limited.matching documents = (before ++ (remaining.take n).dropLast)
      ++ (remaining.take n).getLast nonempty :: remaining.drop n := by
    rw [split, List.append_assoc, ← rest]
  have mem : (remaining.take n).getLast nonempty ∈ documents :=
    (mem_matching.mp (onward ▸ List.mem_append_right _ List.mem_cons_self)).1
  refine ⟨_, _, _, List.getLast?_eq_some_getLast nonempty, rest,
    apply_startAfter paged.ordered (plain _ mem), ?_⟩
  rw [paged.run_resumedAfter,
    paged.matching_resumedAfter distinct exact (unslashed _ mem) onward]

/-- From a run that shows the beginning of the remaining documents on, the pages are the remaining
documents. -/
theorem pages_of_remaining (paged : limited.Paged n) (positive : 1 ≤ n)
    (split : limited.matching documents = before ++ remaining)
    (ran : current.run documents = .ok (remaining.take n)) :
    (∃ pages, Pages limited n documents current pages) ∧
      ∀ pages, Pages limited n documents current pages → pages.flatten = remaining := by
  induction size : remaining.length using Nat.strong_induction_on
    generalizing before remaining current with
  | h _ ih =>
  by_cases short : remaining.length < n
  · rw [List.take_of_length_le (Nat.le_of_lt short)] at ran
    refine ⟨⟨_, .last ran short⟩, fun pages walk => ?_⟩
    cases walk with
    | last again _ =>
      cases ran.symm.trans again
      exact List.flatten_singleton
    | more again full _ _ _ =>
      cases ran.symm.trans again
      exact absurd short (Nat.not_lt.mpr full)
  · have full : n ≤ (remaining.take n).length := by
      rw [List.length_take]
      omega
    have fewer : (remaining.drop n).length < remaining.length := by
      rw [List.length_drop]
      omega
    obtain ⟨front, s, next, ends, rest, resumed, shows⟩ :=
      resumes distinct exact plain unslashed paged positive (Nat.not_lt.mp short) split
    have onward : limited.matching documents = (before ++ (front ++ [s])) ++ remaining.drop n := by
      rw [split, List.append_assoc, List.append_assoc, List.singleton_append, ← rest]
    obtain ⟨⟨pages, walk⟩, unique⟩ := ih _ (size ▸ fewer) onward shows rfl
    refine ⟨⟨_, .more ran full ends resumed walk⟩, fun pages walk => ?_⟩
    cases walk with
    | last again short =>
      cases ran.symm.trans again
      exact absurd short (Nat.not_lt.mpr full)
    | more again _ ends' resumed' walk =>
      cases ran.symm.trans again
      cases ends.symm.trans ends'
      cases resumed.symm.trans resumed'
      rw [List.flatten_cons, unique _ walk, List.take_append_drop]

end Documents

end Paged

/-- The query for the documents of a collection that satisfy some clauses, in some ordering. -/
def listing (collection : ResourcePath) (filters : List FieldFilter) (orders : List OrderBy) :
    Query :=
  ⟨collection, { QueryPlan.empty with filters, orders }⟩

section Listing

variable {collection : ResourcePath} {filters : List FieldFilter} {earlier : List OrderBy}
  {order : OrderBy} {documents : List Snapshot} {n : Nat}

private theorem apply_limit (query : Query) (positive : 1 ≤ n) :
    query.apply (.limit n) = .ok (query.withLimit n .first) :=
  if_neg (Nat.ne_of_gt positive)

private theorem paged_listing (named : order.field.isDocumentId) :
    ((listing collection filters (earlier ++ [order])).withLimit n .first).Paged n :=
  ⟨rfl, rfl, rfl, rfl, rfl, earlier, order, rfl, named⟩

private theorem run_listing :
    (listing collection filters (earlier ++ [order])).run documents
      = .ok ((listing collection filters (earlier ++ [order])).matching documents) :=
  run_eq (QueryPlan.validate_of_ordered (by simp [listing])
    (by simp [listing, QueryPlan.bounds, QueryPlan.empty])) documents

/-- Where the ordering ends with the reserved field, reading a result in pages of any size, each from
after the last document of the one before, comes to an end, and the pages put together are the result
of the query without the limit, each document once. -/
theorem pages_flatten_eq_result (named : order.field.isDocumentId) (positive : 1 ≤ n)
    (distinct : (documents.map Snapshot.key).Nodup) (exact : ∀ s ∈ documents, s.isExact)
    (plain : ∀ s ∈ documents, s.isPlain) (unslashed : ∀ s ∈ documents, '/' ∉ s.key.id.toList) :
    ∃ limited result,
      (listing collection filters (earlier ++ [order])).apply (.limit n) = .ok limited ∧
      (listing collection filters (earlier ++ [order])).run documents = .ok result ∧
      (result.map Snapshot.key).Nodup ∧
      (∃ pages, limited.Pages n documents limited pages) ∧
      ∀ pages, limited.Pages n documents limited pages → pages.flatten = result := by
  refine ⟨_, _, apply_limit _ positive, run_listing, nodup_matching _ distinct, ?_⟩
  exact Paged.pages_of_remaining distinct exact plain unslashed (paged_listing named) positive
    (List.nil_append _).symm ((paged_listing named).run_eq documents)

theorem pages_flatten_eq_result_threeRooms :
    let rooms := listing ⟨["rooms"]⟩ [] (smallRooms.plan.orders ++ [⟨.documentId, .ascending⟩])
    let result :=
      [sizedRoom "hall" (.integer 9), sizedRoom "cellar" (.integer 3), sizedRoom "attic" (.integer 2)]
    (threeRooms.map Snapshot.key).Nodup ∧ (∀ s ∈ threeRooms, s.isExact) ∧
      (∀ s ∈ threeRooms, s.isPlain) ∧ (∀ s ∈ threeRooms, '/' ∉ s.key.id.toList) ∧
      rooms.run threeRooms = .ok result ∧
      ∃ limited, rooms.apply (.limit 2) = .ok limited ∧
        (∃ pages, limited.Pages 2 threeRooms limited pages) ∧
        ∀ pages, limited.Pages 2 threeRooms limited pages → pages.flatten = result := by
  intro rooms result
  have distinct : (threeRooms.map Snapshot.key).Nodup := by decide
  have exact : ∀ s ∈ threeRooms, s.isExact := by decide
  have plain : ∀ s ∈ threeRooms, s.isPlain := by decide
  have unslashed : ∀ s ∈ threeRooms, '/' ∉ s.key.id.toList := by decide
  have listed : rooms.run threeRooms = .ok result := by cbv
  have named : (OrderBy.mk .documentId .ascending).field.isDocumentId := rfl
  have positive : 1 ≤ 2 := by decide
  obtain ⟨limited, found, (narrowed : rooms.apply (.limit 2) = .ok limited), run, -, pages, whole⟩ :=
    pages_flatten_eq_result named positive distinct exact plain unslashed
  obtain rfl : found = result := Except.ok.inj (run.symm.trans listed)
  exact ⟨distinct, exact, plain, unslashed, run, limited, narrowed, pages, whole⟩

end Listing

end Query

end DocumentStore
