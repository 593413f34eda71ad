import DocumentStore.Proofs.Entries
import DocumentStore.Proofs.Outcome
import DocumentStore.Remote.Store
import Mathlib.Data.List.Perm.Basic

/-! # Transactions of a remote store

A transaction is opened by one call, reads documents by others, and is closed by exactly one more: a
commit, when everything that it needs is there, or else a rollback. Answers may come in in any order, and
any call may fail. -/

namespace DocumentStore

namespace Bridge

variable {bridge : Bridge} {method other : String} {request : Json} {n : Nat}

/-- The answer to a call of a method that comes after some more calls of it. -/
def reply (method : String) (n : Nat) (bridge : Bridge) : Except Error Json :=
  (Reply.result (bridge.queue method)[n]?).mapError BridgeFailure.toError

@[simp] theorem calls_call : (bridge.call method request).2.calls
    = bridge.calls ++ [⟨method, request⟩] := rfl

private theorem result_call (method : String) (request : Json) (bridge : Bridge) :
    (bridge.call method request).1.mapError BridgeFailure.toError = bridge.reply method 0 := by
  rw [reply, ← List.head?_eq_getElem?]
  rfl

theorem reply_call_self :
    (bridge.call method request).2.reply method n = bridge.reply method (n + 1) := by
  have taken : (bridge.call method request).2.queue method = (bridge.queue method).tail := by
    rw [queue, call, Entries.find?_insert_self]
    rfl
  rw [reply, taken, List.getElem?_tail, reply]

private theorem reply_call_of_ne (different : other ≠ method) :
    (bridge.call method request).2.reply other n = bridge.reply other n := by
  have kept : (bridge.call method request).2.queue other = bridge.queue other := by
    rw [queue, call, Entries.find?_insert_of_ne different, queue]
  rw [reply, kept, reply]

end Bridge

/-- The result of a transaction, whether its body ran or not. -/
def TransactionEnd.result {ρ : Type} : TransactionEnd ρ → Except Error Unit
  | .notRun e => .error e
  | .ran _ result => result

namespace RemoteStore

variable {store : RemoteStore} {transaction : Json} {keys : List DocumentKey} {key : DocumentKey}

def beginCall : Call := ⟨"transaction.begin", .object []⟩

def getCall (transaction : Json) (key : DocumentKey) : Call :=
  ⟨"get", Json.ofMembers [pathMember key, ("transaction", transaction)]⟩

def commitCall (transaction : Json) (items : List Json) : Call :=
  ⟨"transaction.commit", Json.ofMembers [("transaction", transaction), ("writes", .array items)]⟩

def rollbackCall (transaction : Json) : Call :=
  ⟨"transaction.rollback", .object [("transaction", transaction)]⟩

/-- The store after a call. -/
def called (call : Call) (store : RemoteStore) : RemoteStore :=
  { store with bridge := (store.bridge.call call.method call.request).2 }

theorem invoke_eq (call : Call) (store : RemoteStore) :
    store.invoke call.method call.request = (store.bridge.reply call.method 0, store.called call) := by
  rw [invoke, ← Bridge.result_call call.method call.request]
  rfl

/-- What the bridge answers to a read after some more reads. -/
def document (n : Nat) (store : RemoteStore) : Except Error Snapshot :=
  (store.bridge.reply "get" n).bind fun response =>
    (Wire.decodeSnapshot response).mapError .decode

/-- What the bridge answers when some documents are read one after another. -/
def answers (keys : List DocumentKey) (store : RemoteStore) :
    List (DocumentKey × Except Error Snapshot) :=
  keys.mapIdx fun n key => (key, store.document n)

private theorem fetchOne_eq (transaction : Json) (key : DocumentKey) (store : RemoteStore) :
    store.fetchOne transaction key = (store.document 0, store.called (getCall transaction key)) := by
  rw [fetchOne, exchange]
  dsimp only
  rw [show store.invoke "get" (Json.ofMembers [pathMember key, ("transaction", transaction)])
    = _ from invoke_eq (getCall transaction key) store]
  rfl

private theorem document_called_get {n : Nat} :
    (store.called (getCall transaction key)).document n = store.document (n + 1) := by
  rw [document, document]
  exact congrArg (Except.bind · _) Bridge.reply_call_self

private theorem answers_cons (transaction : Json) (key : DocumentKey) (keys : List DocumentKey)
    (store : RemoteStore) :
    store.answers (key :: keys)
      = (key, store.document 0) :: (store.called (getCall transaction key)).answers keys := by
  rw [answers, List.mapIdx_cons, answers]
  congr 1
  apply List.ext_getElem?
  intro n
  rw [List.getElem?_mapIdx, List.getElem?_mapIdx, document_called_get]

/-- The store after some documents were asked for. -/
def askAll (transaction : Json) (keys : List DocumentKey) (store : RemoteStore) : RemoteStore :=
  keys.foldl (fun store key => store.called (getCall transaction key)) store

private theorem calls_askAll (transaction : Json) (keys : List DocumentKey) (store : RemoteStore) :
    (store.askAll transaction keys).bridge.calls
      = store.bridge.calls ++ keys.map (getCall transaction) := by
  induction keys generalizing store with
  | nil => exact (List.append_nil _).symm
  | cons key keys ih =>
    rw [askAll, List.foldl_cons, ← askAll, ih, List.map_cons, called, Bridge.calls_call]
    simp

/-- Documents that have come in, as answers. -/
def arrived (reads : Reads) : List (DocumentKey × Except Error Snapshot) :=
  reads.map fun (key, snapshot) => (key, .ok snapshot)

/-- What can become of reads: every document that was yet to be asked for is asked for, and all have come
in, or one that was asked for has failed. -/
inductive Gathered (transaction : Json) (unasked : List DocumentKey)
    (coming : List (DocumentKey × Except Error Snapshot)) (reads : Reads) (store : RemoteStore) :
    Except Error Reads × RemoteStore → Prop
  | all {found : Reads}
      (complete : (arrived found).Perm (arrived reads ++ (coming ++ store.answers unasked))) :
      Gathered transaction unasked coming reads store (.ok found, store.askAll transaction unasked)
  | failed {asked : List DocumentKey} {key : DocumentKey} {e : Error} (among : asked <+: unasked)
      (failure : (key, .error e) ∈ coming ++ store.answers asked) :
      Gathered transaction unasked coming reads store (.error e, store.askAll transaction asked)

/-- Whatever the order in which the answers come in, documents are asked for in the order of their keys. -/
theorem gathered_gather (transaction : Json) (unasked : List DocumentKey)
    (coming : List (DocumentKey × Except Error Snapshot)) (reads : Reads) (arrivals : List Nat)
    (store : RemoteStore) :
    Gathered transaction unasked coming reads store
      (store.gather transaction unasked coming reads arrivals) := by
  fun_induction gather transaction unasked coming reads arrivals store with
  | case1 unasked coming reads arrivals store next place inside key e arriving =>
    have failure : (key, .error e) ∈ coming ++ store.answers [] := by
      apply List.mem_append_left
      rw [← arriving]
      exact List.getElem_mem inside
    exact .failed List.nil_prefix failure
  | case2 unasked coming reads arrivals store next place inside key snapshot arriving others ih =>
    have apart : ((key, .ok snapshot) :: others).Perm coming := by
      rw [← arriving]
      exact List.getElem_cons_eraseIdx_perm inside
    generalize store.gather transaction unasked others (reads ++ [(key, snapshot)]) arrivals.tail
      = gathered at ih ⊢
    cases ih with
    | all complete =>
      refine .all (complete.trans ?_)
      rw [arrived, List.map_append, List.append_assoc]
      exact (apart.append_right _).append_left _
    | failed among failure =>
      exact .failed among ((apart.append_right _).mem_iff.mp (List.mem_cons_of_mem _ failure))
  | case3 coming reads arrivals store next place outside =>
    have nothing : coming = [] := by
      by_contra something
      have count : 0 < coming.length := List.length_pos_iff.mpr something
      exact outside (Nat.mod_lt _ count)
    have complete : (arrived reads).Perm (arrived reads ++ (coming ++ store.answers [])) := by
      rw [nothing]
      exact List.Perm.of_eq (List.append_nil _).symm
    exact .all complete
  | case4 coming reads arrivals store next key rest answer later asking place outside ih =>
    rw [fetchOne_eq] at asking
    obtain ⟨rfl, rfl⟩ := Prod.mk.inj asking
    have order (keys : List DocumentKey) :
        (coming ++ [(key, store.document 0)]) ++ (store.called (getCall transaction key)).answers keys
          = coming ++ store.answers (key :: keys) := by
      rw [answers_cons transaction, List.append_assoc]
      rfl
    generalize RemoteStore.gather transaction rest _ reads arrivals.tail _ = gathered at ih ⊢
    cases ih with
    | all complete =>
      rw [order] at complete
      exact .all complete
    | failed among failure =>
      rw [order] at failure
      exact .failed ((List.prefix_cons_inj key).mpr among) failure

private theorem keys_answers (keys : List DocumentKey) (store : RemoteStore) :
    (store.answers keys).map Prod.fst = keys := by
  apply List.ext_getElem?
  intro n
  rw [answers, List.getElem?_map, List.getElem?_mapIdx, Option.map_map]
  exact Option.map_id'

private theorem find?_of_mem {found : Reads} (distinct : (found.map Prod.fst).Nodup)
    {snapshot : Snapshot} (mem : (key, snapshot) ∈ found) : found.find? key = some snapshot := by
  induction found with
  | nil => cases mem
  | cons read found ih =>
    rw [List.map_cons, List.nodup_cons] at distinct
    rcases List.mem_cons.mp mem with rfl | mem
    · simp [Reads.find?]
    · have other : read.1 ≠ key := fun same =>
        distinct.1 (List.mem_map.mpr ⟨(key, snapshot), mem, same.symm⟩)
      have later := ih distinct.2 mem
      rw [Reads.find?] at later ⊢
      rw [List.find?_cons_of_neg (by simpa using other)]
      exact later

theorem eq_arrived {asked : List (DocumentKey × Except Error Snapshot)} {found : Reads}
    (present : ∀ answer ∈ asked, ∃ snapshot,
      answer.2 = .ok snapshot ∧ found.find? answer.1 = some snapshot) :
    asked = arrived ((asked.map Prod.fst).filterMap fun key =>
      (found.find? key).map fun snapshot => (key, snapshot)) := by
  induction asked with
  | nil => rfl
  | cons answer asked ih =>
    rw [List.forall_mem_cons] at present
    obtain ⟨⟨snapshot, ok, there⟩, present⟩ := present
    have later := ih present
    obtain ⟨key, result⟩ := answer
    rw [List.map_cons, List.filterMap_cons, there, Option.map_some, arrived, List.map_cons, ← arrived,
      ← later]
    exact congrArg (fun result => (key, result) :: asked) ok

theorem answers_of_perm (distinct : keys.Nodup) {found : Reads}
    (complete : (arrived found).Perm (store.answers keys)) :
    store.answers keys = arrived (keys.filterMap fun key =>
      (found.find? key).map fun snapshot => (key, snapshot)) := by
  have names : (found.map Prod.fst).Perm keys := by
    have same := complete.map Prod.fst
    rw [keys_answers, arrived, List.map_map] at same
    exact same
  have present : ∀ answer ∈ store.answers keys, ∃ snapshot,
      answer.2 = .ok snapshot ∧ found.find? answer.1 = some snapshot := by
    intro answer mem
    obtain ⟨⟨key, snapshot⟩, there, rfl⟩ := List.mem_map.mp (complete.mem_iff.mpr mem)
    exact ⟨snapshot, rfl, find?_of_mem (names.nodup_iff.mpr distinct) there⟩
  have ordered := eq_arrived present
  rw [keys_answers] at ordered
  exact ordered

/-- Either every document is fetched, or one that was asked for has failed. -/
theorem fetch_cases (distinct : keys.Nodup) (transaction : Json) (store : RemoteStore) :
    (∃ reads, store.fetch transaction keys = (.ok reads, store.askAll transaction keys) ∧
        store.answers keys = arrived reads) ∨
      ∃ asked key e, store.fetch transaction keys = (.error e, store.askAll transaction asked) ∧
        asked <+: keys ∧ (key, .error e) ∈ store.answers asked := by
  have gathered := gathered_gather transaction keys [] [] store.bridge.arrivals store
  rw [fetch]
  generalize store.gather transaction keys [] [] store.bridge.arrivals = result at gathered ⊢
  cases gathered with
  | all complete => exact .inl ⟨_, rfl, answers_of_perm distinct complete⟩
  | failed among failure => exact .inr ⟨_, _, _, rfl, among, failure⟩

section Protocol

variable {ρ : Type} {body : Reads → ρ × Except Error (List WriteOperation)}

/-- The transaction that the bridge opens, or the reason why it opens none. -/
def opening (store : RemoteStore) : Except Error Json :=
  (store.bridge.reply "transaction.begin" 0).bind fun response =>
    match response.member? "transaction" with
    | some transaction => .ok transaction
    | none => .error .noTransactionId

/-- Everything is there that a commit needs: every document is fetched and decoded, the body asks for
writes, and each of the writes is encoded, in their order. -/
def Proposes (store : RemoteStore) (keys : List DocumentKey)
    (body : Reads → ρ × Except Error (List WriteOperation)) (items : List Json) : Prop :=
  ∃ reads writes, store.answers keys = arrived reads ∧ (body reads).2 = .ok writes ∧
    List.Forall₂ (fun write item => Wire.encodeWrite write = .ok item) writes items

/-- The reasons for giving up a transaction that was opened, once some documents were asked for. -/
inductive Obstacle (store : RemoteStore) (keys : List DocumentKey)
    (body : Reads → ρ × Except Error (List WriteOperation)) (asked : List DocumentKey) : Error → Prop
  /-- A document that was asked for was not fetched or not decoded. -/
  | read {key : DocumentKey} {e : Error} (failure : (key, .error e) ∈ store.answers asked) :
    Obstacle store keys body asked e
  /-- The body raised an error. -/
  | body {reads : Reads} {e : Error} (fetched : store.answers keys = arrived reads)
      (raised : (body reads).2 = .error e) : Obstacle store keys body asked e
  /-- A write is the first that could not be encoded. -/
  | encoding {reads : Reads} {before after : List WriteOperation} {write : WriteOperation}
      {fault : ValueFault} (fetched : store.answers keys = arrived reads)
      (ok : (body reads).2 = .ok (before ++ write :: after))
      (sound : ∀ earlier ∈ before, ∃ item, Wire.encodeWrite earlier = .ok item)
      (refused : Wire.encodeWrite write = .error fault) :
    Obstacle store keys body asked (.value fault)

/-- What becomes of a transaction that was opened: the calls after its beginning, and its result. -/
inductive Closes (store : RemoteStore) (transaction : Json) (keys : List DocumentKey)
    (body : Reads → ρ × Except Error (List WriteOperation)) : List Call → Except Error Unit → Prop
  | commit {items : List Json} (proposes : store.Proposes keys body items) :
    Closes store transaction keys body
      (keys.map (getCall transaction) ++ [commitCall transaction items])
      ((store.bridge.reply "transaction.commit" 0).map fun _ => ())
  | rollback {asked : List DocumentKey} {e : Error} (among : asked <+: keys)
      (obstacle : store.Obstacle keys body asked e) :
    Closes store transaction keys body
      (asked.map (getCall transaction) ++ [rollbackCall transaction]) (.error e)

theorem arrived_injective : Function.Injective arrived := by
  apply List.map_injective_iff.mpr
  rintro ⟨key, snapshot⟩ ⟨other, state⟩ same
  cases same
  rfl

theorem Obstacle.not_proposes {asked : List DocumentKey} {e : Error}
    (obstacle : store.Obstacle keys body asked e) (among : asked <+: keys) (items : List Json) :
    ¬ store.Proposes keys body items := by
  rintro ⟨reads, writes, fetched, ok, encoded⟩
  cases obstacle with
  | @read key _ failure =>
    obtain ⟨rest, rfl⟩ := among
    have mem : (key, .error e) ∈ store.answers (asked ++ rest) := by
      rw [answers, List.mapIdx_append]
      exact List.mem_append_left _ failure
    rw [fetched] at mem
    obtain ⟨read, -, same⟩ := List.mem_map.mp mem
    cases same
  | body fetched' raised =>
    obtain rfl := arrived_injective (fetched.symm.trans fetched')
    rw [ok] at raised
    cases raised
  | encoding fetched' ok' _ refused =>
    obtain rfl := arrived_injective (fetched.symm.trans fetched')
    obtain rfl := Except.ok.inj (ok.symm.trans ok')
    obtain ⟨item, accepted⟩ :=
      exists_forall₂_iff.mp ⟨items, encoded⟩ _ (List.mem_append_right _ List.mem_cons_self)
    rw [refused] at accepted
    cases accepted

theorem Proposes.unique {items others : List Json} (proposes : store.Proposes keys body items)
    (proposes' : store.Proposes keys body others) : items = others := by
  obtain ⟨reads, writes, fetched, ok, encoded⟩ := proposes
  obtain ⟨reads', writes', fetched', ok', encoded'⟩ := proposes'
  obtain rfl := arrived_injective (fetched.symm.trans fetched')
  obtain rfl := Except.ok.inj (ok.symm.trans ok')
  rw [← mapM_eq_ok] at encoded encoded'
  exact Except.ok.inj (encoded.symm.trans encoded')

theorem calls_called (call : Call) (store : RemoteStore) :
    (store.called call).bridge.calls = store.bridge.calls ++ [call] := rfl

theorem reply_called {call : Call} {method : String} {n : Nat} (different : method ≠ call.method) :
    (store.called call).bridge.reply method n = store.bridge.reply method n :=
  Bridge.reply_call_of_ne different

private theorem reply_askAll {method : String} {n : Nat} (different : method ≠ "get") :
    (store.askAll transaction keys).bridge.reply method n = store.bridge.reply method n := by
  induction keys generalizing store with
  | nil => rfl
  | cons key keys ih =>
    have first : (store.called (getCall transaction key)).bridge.reply method n
        = store.bridge.reply method n := reply_called different
    rw [askAll, List.foldl_cons, ← askAll, ih, first]

/-- A transaction that was opened is closed by one call after its reads. -/
theorem closes_transactWithin (distinct : keys.Nodup) (transaction : Json)
    (body : Reads → ρ × Except Error (List WriteOperation)) (store : RemoteStore) :
    ∃ later, (store.transactWithin transaction keys body).2.bridge.calls
        = store.bridge.calls ++ later ∧
      store.Closes transaction keys body later
        (store.transactWithin transaction keys body).1.result := by
  have rolledBack (asked : List DocumentKey) :
      ((store.askAll transaction asked).rollBack transaction).bridge.calls
        = store.bridge.calls ++ (asked.map (getCall transaction) ++ [rollbackCall transaction]) := by
    rw [← List.append_assoc, ← calls_askAll]
    rfl
  unfold transactWithin
  obtain ⟨reads, fetched, present⟩ | ⟨asked, key, e, failed, among, failure⟩ :=
    fetch_cases distinct transaction store
  · rw [fetched]
    dsimp only
    cases outcome : (body reads).2 with
    | error e =>
      have obstacle : store.Obstacle keys body keys e := .body present outcome
      exact ⟨_, rolledBack keys, .rollback (List.prefix_refl keys) obstacle⟩
    | ok writes =>
      rw [show (Except.ok writes).bind (fun writes => (Wire.encodeWrites writes).mapError Error.value)
        = (Wire.encodeWrites writes).mapError Error.value from rfl]
      cases encoded : Wire.encodeWrites writes with
      | error fault =>
        obtain ⟨before, write, after, rfl, sound, refused⟩ := exists_of_mapM_eq_error encoded
        have obstacle : store.Obstacle keys body keys (.value fault) :=
          .encoding present outcome sound refused
        exact ⟨_, rolledBack keys, .rollback (List.prefix_refl keys) obstacle⟩
      | ok items =>
        have proposes : store.Proposes keys body items :=
          ⟨reads, writes, present, outcome, mapM_eq_ok.mp encoded⟩
        have asked : (store.askAll transaction keys).invoke "transaction.commit"
              (Json.ofMembers [("transaction", transaction), ("writes", .array items)])
            = (store.bridge.reply "transaction.commit" 0,
                (store.askAll transaction keys).called (commitCall transaction items)) := by
          have different : "transaction.commit" ≠ "get" := by decide
          have kept : (store.askAll transaction keys).bridge.reply "transaction.commit" 0
              = store.bridge.reply "transaction.commit" 0 := reply_askAll different
          rw [← kept]
          exact invoke_eq (commitCall transaction items) _
        dsimp only [mapError_ok]
        rw [asked]
        refine ⟨_, ?_, .commit proposes⟩
        rw [calls_called, calls_askAll, List.append_assoc]
  · rw [failed]
    exact ⟨_, rolledBack asked, .rollback among (.read failure)⟩

private theorem document_called_begin {n : Nat} :
    (store.called beginCall).document n = store.document n := by
  have different : "get" ≠ beginCall.method := by decide
  rw [document, document, reply_called different]

/-- The beginning takes no answer away from the reads. -/
theorem answers_called_begin (keys : List DocumentKey) (store : RemoteStore) :
    (store.called beginCall).answers keys = store.answers keys := by
  apply List.ext_getElem?
  intro n
  rw [answers, answers, List.getElem?_mapIdx, List.getElem?_mapIdx, document_called_begin]

private theorem proposes_called_begin {items : List Json} :
    (store.called beginCall).Proposes keys body items ↔ store.Proposes keys body items := by
  rw [Proposes, Proposes, answers_called_begin]

private theorem Obstacle.of_called_begin {asked : List DocumentKey} {e : Error}
    (obstacle : (store.called beginCall).Obstacle keys body asked e) :
    store.Obstacle keys body asked e := by
  cases obstacle with
  | read failure => exact .read (answers_called_begin asked store ▸ failure)
  | body fetched raised => exact .body (answers_called_begin keys store ▸ fetched) raised
  | encoding fetched ok sound refused =>
    exact .encoding (answers_called_begin keys store ▸ fetched) ok sound refused

private theorem Closes.of_called_begin {later : List Call} {result : Except Error Unit}
    (closes : (store.called beginCall).Closes transaction keys body later result) :
    store.Closes transaction keys body later result := by
  cases closes with
  | commit proposes =>
    have different : "transaction.commit" ≠ beginCall.method := by decide
    rw [reply_called different]
    exact .commit (proposes_called_begin.mp proposes)
  | rollback among obstacle => exact .rollback among obstacle.of_called_begin

private theorem transact_eq (keys : List DocumentKey)
    (body : Reads → ρ × Except Error (List WriteOperation)) (store : RemoteStore) :
    store.transact keys body =
      match store.opening with
      | .error e => (.notRun e, store.called beginCall)
      | .ok transaction => (store.called beginCall).transactWithin transaction keys body := by
  have begun : store.invoke "transaction.begin" (.object [])
      = (store.bridge.reply "transaction.begin" 0, store.called beginCall) := invoke_eq beginCall store
  rw [transact, begun, opening]
  cases store.bridge.reply "transaction.begin" 0 with
  | error e => rfl
  | ok response =>
    dsimp only [Except.bind]
    cases response.member? "transaction" <;> rfl

/-- A transaction begins with one call. If it is opened, some of its documents are asked for, each once,
and one call closes it: a commit with what is proposed, or a rollback if nothing can be. The result is
that of the commit, or the reason for the rollback, whatever becomes of the rollback. -/
theorem transact_follows_protocol (distinct : keys.Nodup)
    (body : Reads → ρ × Except Error (List WriteOperation)) (store : RemoteStore) :
    ∃ later,
      (store.transact keys body).2.bridge.calls = store.bridge.calls ++ beginCall :: later ∧
      match store.opening with
      | .error e => later = [] ∧ (store.transact keys body).1.result = .error e
      | .ok transaction =>
        ∃ asked last, later = asked.map (getCall transaction) ++ [last] ∧
          asked <+: keys ∧ asked.Nodup ∧
          ((∃ items, store.Proposes keys body items ∧ asked = keys ∧
              last = commitCall transaction items ∧
              (store.transact keys body).1.result
                = (store.bridge.reply "transaction.commit" 0).map fun _ => ()) ∨
            ((∀ items, ¬ store.Proposes keys body items) ∧ last = rollbackCall transaction ∧
              ∃ e, store.Obstacle keys body asked e ∧
                (store.transact keys body).1.result = .error e)) := by
  rw [transact_eq]
  cases store.opening with
  | error e => exact ⟨[], rfl, rfl, rfl⟩
  | ok transaction =>
    dsimp only
    obtain ⟨later, calls, closes⟩ :=
      closes_transactWithin distinct transaction body (store.called beginCall)
    have closes := closes.of_called_begin
    refine ⟨later, ?_, ?_⟩
    · rw [calls, calls_called, List.append_assoc]
      rfl
    · generalize ((store.called beginCall).transactWithin transaction keys body).1.result = result
        at closes ⊢
      cases closes with
      | @commit items proposes =>
        exact ⟨keys, _, rfl, List.prefix_refl keys, distinct, .inl ⟨items, proposes, rfl, rfl, rfl⟩⟩
      | @rollback asked e among obstacle =>
        have refused := obstacle.not_proposes among
        exact ⟨asked, _, rfl, among, among.sublist.nodup distinct,
          .inr ⟨refused, rfl, e, obstacle, rfl⟩⟩

end Protocol

def pantry : DocumentKey := ⟨⟨["stores", "pantry"]⟩, by decide, by decide⟩
def cellar : DocumentKey := ⟨⟨["stores", "cellar"]⟩, by decide, by decide⟩

/-- A store whose bridge opens a transaction and answers two reads, of which the second comes in first. -/
def supplied : RemoteStore :=
  .new
    { replies :=
        [("get",
            [.ok (.object [("exists", .bool true),
              ("fields", .object [("flour", Wire.typed "integerValue" (.string "3"))]),
              ("path", .string "stores/pantry")]),
            .ok (.object [("exists", .bool false), ("path", .string "stores/cellar")])]),
          ("transaction.begin", [.ok (.object [("transaction", .string "tx-7")])])]
      calls := []
      arrivals := [2, 1, 0] } 4

/-- Moves the first document that was read to where the second one was looked for. -/
def relocating : Reads → Unit × Except Error (List WriteOperation)
  | [(source, s), (target, _)] => ((), .ok [.set target (s.fields?.getD []) false, .delete source])
  | _ => ((), .ok [])

theorem transact_follows_protocol_supplied :
    let run := supplied.transact [pantry, cellar] relocating
    [pantry, cellar].Nodup ∧ supplied.opening = .ok (.string "tx-7") ∧
      run.2.bridge.calls =
        [⟨"transaction.begin", .object []⟩,
          ⟨"get", .object [("path", .string "stores/pantry"), ("transaction", .string "tx-7")]⟩,
          ⟨"get", .object [("path", .string "stores/cellar"), ("transaction", .string "tx-7")]⟩,
          ⟨"transaction.commit", .object [("transaction", .string "tx-7"),
            ("writes", .array
              [.object [("fields", .object [("flour", .object [("integerValue", .string "3")])]),
                  ("merge", .bool false), ("op", .string "set"), ("path", .string "stores/cellar")],
                .object [("op", .string "delete"), ("path", .string "stores/pantry")]])]⟩] ∧
      run.1.result = .ok () := by
  intro run
  have distinct : [pantry, cellar].Nodup := by decide
  have opened : supplied.opening = .ok (.string "tx-7") := rfl
  have first : supplied.document 0 = .ok ⟨pantry, some [("flour", .integer 3)]⟩ := rfl
  have second : supplied.document 1 = .ok (Snapshot.missing cellar) := rfl
  have fetched : supplied.answers [pantry, cellar]
      = arrived [(pantry, ⟨pantry, some [("flour", .integer 3)]⟩), (cellar, .missing cellar)] := by
    simp [answers, arrived, first, second]
  have proposes : supplied.Proposes [pantry, cellar] relocating
      [.object [("fields", .object [("flour", .object [("integerValue", .string "3")])]),
          ("merge", .bool false), ("op", .string "set"), ("path", .string "stores/cellar")],
        .object [("op", .string "delete"), ("path", .string "stores/pantry")]] :=
    ⟨_, _, fetched, rfl, .cons rfl (.cons rfl .nil)⟩
  obtain ⟨later, calls, closed⟩ := transact_follows_protocol distinct relocating supplied
  rw [opened] at closed
  obtain ⟨asked, last, rfl, -, -, ⟨items, proposed, rfl, rfl, result⟩ | ⟨refused, -⟩⟩ := closed
  · obtain rfl := proposed.unique proposes
    exact ⟨distinct, opened, calls, result⟩
  · exact absurd proposes (refused _)

def lost : BridgeFailure := ⟨"unavailable", "connection lost"⟩

/-- A store whose bridge opens a transaction, answers one read of two and loses the connection. The
failure comes in first. -/
def brokenOff : RemoteStore :=
  .new
    { replies :=
        [("get", [.ok (.object [("exists", .bool false), ("path", .string "stores/pantry")]), .fail lost]),
          ("transaction.begin", [.ok (.object [("transaction", .string "tx-7")])]),
          ("transaction.rollback", [.fail lost])]
      calls := []
      arrivals := [1, 1, 1] } 4

/-- Deletes what was read. -/
def clearing (reads : Reads) : Unit × Except Error (List WriteOperation) :=
  ((), .ok (reads.map fun (key, _) => .delete key))

example :
    let run := brokenOff.transact [pantry, cellar] clearing
    run.2.bridge.calls = [beginCall, getCall (.string "tx-7") pantry, getCall (.string "tx-7") cellar,
        rollbackCall (.string "tx-7")] ∧
      run.1.result = .error lost.toError := by
  have opened : brokenOff.opening = .ok (.string "tx-7") := rfl
  have first : brokenOff.document 0 = .ok (Snapshot.missing pantry) := rfl
  have second : brokenOff.document 1 = .error lost.toError := rfl
  have order : (brokenOff.called beginCall).bridge.arrivals = [1, 1, 1] := rfl
  have fetched : (brokenOff.called beginCall).fetch (.string "tx-7") [pantry, cellar]
      = (.error lost.toError, (brokenOff.called beginCall).askAll (.string "tx-7") [pantry, cellar]) := by
    rw [fetch, order]
    simp [gather, fetchOne_eq, document_called_get, document_called_begin, first, second, Except.map,
      askAll]
  rw [transact_eq, opened]
  dsimp only
  rw [transactWithin, fetched]
  exact ⟨rfl, rfl⟩

end RemoteStore

end DocumentStore
