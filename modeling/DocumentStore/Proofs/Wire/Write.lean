import DocumentStore.Proofs.Path.Text
import DocumentStore.Proofs.Time.Writing
import DocumentStore.Proofs.Wire.Value
import DocumentStore.Wire.Write

/-! # Writes are told apart by what is sent

The record of a value names its kind and that of a marker its tag, so values with one record are of one
kind, and their contents agree by induction. Infinities and not-a-number are the doubles that are
confounded, a dot in a key the way to confound two field paths, and a slash in a segment the way to
confound two documents. -/

namespace DocumentStore

namespace Value

mutual

/-- Tells the values in which all doubles are finite, those below a marker included. -/
def doublesFinite : Value → Bool
  | .double d => d.isFinite
  | .array elements | .arrayUnion elements | .arrayRemove elements => allDoublesFinite elements
  | .map fields => fieldDoublesFinite fields
  | .increment operand => doublesFinite operand
  | _ => true

/-- Tells the lists of such values. -/
def allDoublesFinite : List Value → Bool
  | [] => true
  | v :: vs => doublesFinite v && allDoublesFinite vs

/-- Tells the fields with such values. -/
def fieldDoublesFinite : Entries Value → Bool
  | [] => true
  | (_, v) :: fields => doublesFinite v && fieldDoublesFinite fields

end

/-- The name by which the record of a value can be told: that of its kind or its tag. -/
def label : Value → String
  | .null => "nullValue"
  | .boolean _ => "booleanValue"
  | .integer _ => "integerValue"
  | .double _ => "doubleValue"
  | .timestamp _ => "timestampValue"
  | .string _ => "stringValue"
  | .bytes _ => "bytesValue"
  | .reference _ => "referenceValue"
  | .array _ => "arrayValue"
  | .map _ => "mapValue"
  | marker => marker.tag

end Value

namespace Wire

/-- The tag of a record, or the name of its first member if it has no tag. -/
def labelOf : Json → String
  | .object ((name, content) :: _) =>
    if name = Value.tagKey then
      match content with
      | .string tag => tag
      | _ => name
    else name
  | _ => ""

variable {v w : Value} {j : Json}

theorem labelOf_encodeValue (written : encodeValue v = .ok j) : labelOf j = v.label := by
  cases v with
  | timestamp t =>
    rw [encodeValue] at written
    split at written
    · cases written
      rfl
    · cases written
  | array elements | map fields | increment operand | arrayUnion elements | arrayRemove elements =>
    obtain ⟨content, -, rfl⟩ := map_eq_ok.mp written
    rfl
  | _ =>
    cases written
    rfl

theorem label_ne_of_isSentinel (plain : v.isSentinel = false) (marker : w.isSentinel) :
    v.label ≠ w.label := by
  cases v <;> cases w <;> simp_all [Value.label, Value.tag, Value.isSentinel]

private theorem ofDouble_inj {d e : Double} (hd : d.isFinite) (he : e.isFinite)
    (same : Json.ofDouble d = Json.ofDouble e) : d = e := by
  rw [Json.ofDouble, Json.ofDouble, if_pos hd, if_pos he] at same
  exact Json.float.inj same

/-- Records of one kind are told apart by their contents. -/
theorem typed_inj {kind : String} {content content' : Json}
    (first : (.ok (typed kind content) : Except ValueFault Json) = .ok j)
    (second : (.ok (typed kind content') : Except ValueFault Json) = .ok j) : content = content' := by
  cases first
  cases second
  rfl

private theorem typed_string_inj {kind text text' : String}
    (first : (.ok (typed kind (.string text)) : Except ValueFault Json) = .ok j)
    (second : (.ok (typed kind (.string text')) : Except ValueFault Json) = .ok j) :
    text = text' :=
  Json.string.inj (typed_inj first second)

theorem content_of_records {α : Type} {record : α → Json} (inj : Function.Injective record)
    {x y : Except ValueFault α} (first : x.map record = .ok j) (second : y.map record = .ok j) :
    ∃ content, x = .ok content ∧ y = .ok content := by
  obtain ⟨content, hx, rfl⟩ := map_eq_ok.mp first
  obtain ⟨content', hy, same⟩ := map_eq_ok.mp second
  rw [inj same] at hy
  exact ⟨content, hx, hy⟩

private theorem encodeValue_timestamp {t : Timestamp} (written : encodeValue (.timestamp t) = .ok j) :
    ∃ s, t.writeFull? = some s ∧ .ok (typed "timestampValue" (.string s)) = Except.ok (ε := ValueFault) j := by
  rw [encodeValue] at written
  split at written
  · exact ⟨_, ‹_›, written⟩
  · cases written

private theorem writeInteger_inj {m n : Int64}
    (same : Text.writeInteger m.toInt = Text.writeInteger n.toInt) : m = n := by
  have read : (.ok m : Except Text.IntegerFault Int64) = .ok n := by
    rw [← Text.readInteger_writeInteger, same, Text.readInteger_writeInteger]
  exact Except.ok.inj read

private theorem encodeBase64_inj {bs cs : List UInt8}
    (same : Text.Base64.encode bs = Text.Base64.encode cs) : bs = cs := by
  have read : (.ok bs : Except Text.Base64.Fault (List UInt8)) = .ok cs := by
    rw [← Text.Base64.decode_encode, same, Text.Base64.decode_encode]
  exact Except.ok.inj read

theorem encodeOperand_inj (hv : v.doublesFinite) (hw : w.doublesFinite)
    (first : encodeOperand v = .ok j) (second : encodeOperand w = .ok j) : v = w := by
  have float {d : Double} (finite : d.isFinite) : Json.ofDouble d = .float d := if_pos finite
  unfold encodeOperand at first second
  split at first
  case h_1 m =>
    split at second
    case h_1 n =>
      cases first
      rw [Int64.toInt_inj.mp (Json.int.inj (Except.ok.inj second))]
    case h_2 d =>
      rw [float hw] at second
      cases first
      cases second
    case h_3 => cases second
  case h_2 d =>
    rw [float hv] at first
    split at second
    case h_1 n =>
      cases first
      cases second
    case h_2 e =>
      rw [float hw] at second
      cases first
      cases second
      rfl
    case h_3 => cases second
  case h_3 => cases first

mutual

/-- Values with one record are one value. The labels leave only pairs of one kind. -/
theorem encodeValue_inj (v : Value) {w : Value} {j : Json} (hv : v.doublesFinite)
    (hw : w.doublesFinite) (first : encodeValue v = .ok j) (second : encodeValue w = .ok j) :
    v = w := by
  have labels : v.label = w.label := by
    rw [← labelOf_encodeValue first, labelOf_encodeValue second]
  cases v <;> cases w <;> simp only [Value.label, Value.tag, String.reduceEq] at labels
  case null.null => rfl
  case boolean.boolean b c =>
    cases first
    cases second
    rfl
  case integer.integer m n => rw [writeInteger_inj (typed_string_inj first second)]
  case double.double d e => rw [ofDouble_inj hv hw (typed_inj first second)]
  case timestamp.timestamp t u =>
    obtain ⟨s, ht, first⟩ := encodeValue_timestamp first
    obtain ⟨s', hu, second⟩ := encodeValue_timestamp second
    obtain rfl : s = s' := typed_string_inj first second
    rw [Timestamp.writeFull_inj ht hu]
  case string.string s s' => rw [typed_string_inj first second]
  case bytes.bytes bs cs => rw [encodeBase64_inj (typed_string_inj first second)]
  case reference.reference path path' => rw [typed_string_inj first second]
  case array.array elements others =>
    obtain ⟨items, hitems, hothers⟩ := content_of_records (by rintro _ _ ⟨⟩; rfl) first second
    rw [encodeList_inj elements hv hw hitems hothers]
  case map.map fields others =>
    obtain ⟨members, hmembers, hothers⟩ := content_of_records (by rintro _ _ ⟨⟩; rfl) first second
    rw [encodeFields_inj fields hv hw hmembers hothers]
  case serverTimestamp.serverTimestamp => rfl
  case increment.increment operand other =>
    obtain ⟨n, hoperand, hother⟩ := content_of_records (by rintro _ _ ⟨⟩; rfl) first second
    have operands : operand = other := encodeOperand_inj hv hw hoperand hother
    rw [operands]
  case arrayUnion.arrayUnion elements others =>
    obtain ⟨items, hitems, hothers⟩ := content_of_records (by rintro _ _ ⟨⟩; rfl) first second
    rw [encodeList_inj elements hv hw hitems hothers]
  case arrayRemove.arrayRemove elements others =>
    obtain ⟨items, hitems, hothers⟩ := content_of_records (by rintro _ _ ⟨⟩; rfl) first second
    rw [encodeList_inj elements hv hw hitems hothers]
  case deleteField.deleteField => rfl
termination_by structural v

theorem encodeList_inj (vs : List Value) {ws : List Value} {items : List Json}
    (hv : Value.allDoublesFinite vs) (hw : Value.allDoublesFinite ws)
    (first : encodeList vs = .ok items) (second : encodeList ws = .ok items) : vs = ws := by
  cases vs with
  | nil =>
    cases first
    cases ws with
    | nil => rfl
    | cons w ws =>
      obtain ⟨_, _, -, -, same⟩ := encodeList_cons_eq_ok.mp second
      cases same
  | cons v vs =>
    obtain ⟨item, items, hitem, hitems, rfl⟩ := encodeList_cons_eq_ok.mp first
    cases ws with
    | nil => cases second
    | cons w ws =>
      obtain ⟨item', items', hitem', hitems', same⟩ := encodeList_cons_eq_ok.mp second
      cases same
      simp only [Value.allDoublesFinite, Bool.and_eq_true] at hv hw
      rw [encodeValue_inj v hv.1 hw.1 hitem hitem', encodeList_inj vs hv.2 hw.2 hitems hitems']
termination_by structural vs

theorem encodeFields_inj (fields : Entries Value) {others : Entries Value}
    {members : List (String × Json)} (hf : Value.fieldDoublesFinite fields)
    (ho : Value.fieldDoublesFinite others) (first : encodeFields fields = .ok members)
    (second : encodeFields others = .ok members) : fields = others := by
  cases fields with
  | nil =>
    cases first
    cases others with
    | nil => rfl
    | cons other others =>
      obtain ⟨_, _, -, -, same⟩ := encodeFields_cons_eq_ok.mp second
      cases same
  | cons entry fields =>
    obtain ⟨key, v⟩ := entry
    obtain ⟨member, members, hmember, hmembers, rfl⟩ := encodeFields_cons_eq_ok.mp first
    cases others with
    | nil => cases second
    | cons other others =>
      obtain ⟨key', w⟩ := other
      obtain ⟨member', members', hmember', hmembers', same⟩ := encodeFields_cons_eq_ok.mp second
      cases same
      simp only [Value.fieldDoublesFinite, Bool.and_eq_true] at hf ho
      rw [encodeValue_inj v hf.1 ho.1 hmember hmember',
        encodeFields_inj fields hf.2 ho.2 hmembers hmembers']
termination_by structural fields

end

/-- A map without markers in its place is never taken for a marker: it has no tag. -/
theorem encodeValue_ne_of_isSentinel (plain : v.isSentinel = false) (marker : w.isSentinel)
    (written : encodeValue v = .ok j) : encodeValue w ≠ .ok j := fun again =>
  label_ne_of_isSentinel plain marker <| by
    rw [← labelOf_encodeValue written, labelOf_encodeValue again]

end Wire

namespace FieldPath

variable {path other : FieldPath} {paths others : List FieldPath}

/-- The keys of a path have no dots in them. -/
def DotFree (path : FieldPath) : Prop := ∀ segment ∈ path.segments, '.' ∉ segment.toList

private theorem DotFree.split_text (free : path.DotFree) :
    Text.split '.' path.text = path.segments := by
  have pieces : Text.splitChars '.' (Text.joinChars '.' (path.segments.map String.toList))
      = path.segments.map String.toList := by
    refine Text.splitChars_joinChars (by simpa using path.nonempty) fun piece mem => ?_
    obtain ⟨segment, hsegment, rfl⟩ := List.mem_map.mp mem
    exact free segment hsegment
  rw [Text.split, text, Text.join, String.toList_ofList, pieces, List.map_map]
  simp only [Function.comp_def, String.ofList_toList, List.map_id_fun', id]

theorem DotFree.eq_of_text (hpath : path.DotFree) (hother : other.DotFree)
    (same : path.text = other.text) : path = other := by
  have segments : path.segments = other.segments := by
    rw [← hpath.split_text, same, hother.split_text]
  cases path
  cases other
  cases segments
  rfl

private theorem eq_of_texts (hpaths : ∀ path ∈ paths, path.DotFree)
    (hothers : ∀ path ∈ others, path.DotFree)
    (same : paths.map text = others.map text) : paths = others := by
  induction paths generalizing others with
  | nil => exact (List.map_eq_nil_iff.mp same.symm).symm
  | cons path paths ih =>
    cases others with
    | nil => cases same
    | cons other others =>
      obtain ⟨first, rest⟩ := List.cons.inj same
      rw [List.forall_mem_cons] at hpaths hothers
      rw [hpaths.1.eq_of_text hothers.1 first, ih hpaths.2 hothers.2 rest]

end FieldPath

namespace WriteOperation

/-- The name of the mutation. -/
def name : WriteOperation → String
  | .set _ _ _ => "set"
  | .update _ _ _ => "update"
  | .delete _ => "delete"

/-- The fields that a write carries; a deletion carries none. -/
def data : WriteOperation → Fields
  | .set _ data _ => data
  | .update _ data _ => data
  | .delete _ => []

/-- The fields that an update names. -/
def paths : WriteOperation → List FieldPath
  | .update _ _ paths => paths
  | _ => []

/-- A write no part of which is confounded with something else when it is sent. -/
structure Unmistakable (operation : WriteOperation) : Prop where
  clean : operation.key.path.Clean
  finite : Value.fieldDoublesFinite operation.data
  free : ∀ path ∈ operation.paths, path.DotFree

end WriteOperation

namespace Wire

variable {key : DocumentKey} {data : Fields}

theorem encodeWrite_set (merge : Bool) : encodeWrite (.set key data merge) =
    (encodeFields data).map fun members => .object
      [("fields", .object members), ("merge", .bool merge), ("op", .string "set"),
        ("path", .string key.text)] := by
  rw [encodeWrite]
  cases encodeFields data <;> rfl

theorem encodeWrite_update (paths : List FieldPath) : encodeWrite (.update key data paths) =
    (encodeFields data).map fun members => .object
      [("fieldPaths", pathTexts paths), ("fields", .object members), ("op", .string "update"),
        ("path", .string key.text)] := by
  rw [encodeWrite]
  cases encodeFields data <;> rfl

private theorem encodeWrite_delete : encodeWrite (.delete key) =
    .ok (.object [("op", .string "delete"), ("path", .string key.text)]) := rfl

theorem member_of_encodeWrite {operation : WriteOperation} (sent : encodeWrite operation = .ok j) :
    j.member? "op" = some (.string operation.name) ∧
      j.member? "path" = some (.string operation.key.text) := by
  cases operation with
  | set key data merge =>
    rw [encodeWrite_set] at sent
    obtain ⟨members, -, rfl⟩ := map_eq_ok.mp sent
    exact ⟨rfl, rfl⟩
  | update key data paths =>
    rw [encodeWrite_update] at sent
    obtain ⟨members, -, rfl⟩ := map_eq_ok.mp sent
    exact ⟨rfl, rfl⟩
  | delete key =>
    rw [encodeWrite_delete] at sent
    cases sent
    exact ⟨rfl, rfl⟩

private theorem pathTexts_inj {paths others : List FieldPath}
    (same : pathTexts paths = pathTexts others) :
    paths.map FieldPath.text = others.map FieldPath.text := by
  have texts : (paths.map FieldPath.text).map Json.string
      = (others.map FieldPath.text).map Json.string := by
    rw [List.map_map, List.map_map]
    exact Json.array.inj same
  exact (List.map_inj_right fun _ _ => Json.string.inj).mp texts

/-- Writes with one record are one write. The record names the mutation, which leaves only pairs of one
kind. -/
theorem eq_of_encodeWrite {a b : WriteOperation} (ha : a.Unmistakable) (hb : b.Unmistakable)
    (first : encodeWrite a = .ok j) (second : encodeWrite b = .ok j) : a = b := by
  obtain ⟨aName, aPath⟩ := member_of_encodeWrite first
  obtain ⟨bName, bPath⟩ := member_of_encodeWrite second
  have names : a.name = b.name := Json.string.inj (Option.some.inj (aName.symm.trans bName))
  have keys : a.key = b.key := DocumentKey.eq_of_text ha.clean hb.clean
    (Json.string.inj (Option.some.inj (aPath.symm.trans bPath)))
  cases a <;> cases b <;> simp only [WriteOperation.name, String.reduceEq] at names
  case set.set key data merge key' data' merge' =>
    obtain rfl : key = key' := keys
    rw [encodeWrite_set] at first second
    obtain ⟨members, sent, rfl⟩ := map_eq_ok.mp first
    obtain ⟨members', sent', same⟩ := map_eq_ok.mp second
    cases same
    have fields : data = data' := encodeFields_inj data ha.finite hb.finite sent sent'
    rw [fields]
  case update.update key data paths key' data' paths' =>
    obtain rfl : key = key' := keys
    rw [encodeWrite_update] at first second
    obtain ⟨members, sent, rfl⟩ := map_eq_ok.mp first
    obtain ⟨members', sent', same⟩ := map_eq_ok.mp second
    obtain ⟨texts, records⟩ := List.cons.inj (Json.object.inj same)
    cases records
    have fields : data = data' := encodeFields_inj data ha.finite hb.finite sent sent'
    have named : paths = paths' :=
      FieldPath.eq_of_texts ha.free hb.free (pathTexts_inj (Prod.mk.inj texts).2.symm)
    rw [fields, named]
  case delete.delete key key' =>
    obtain rfl : key = key' := keys
    rfl

/-- What is sent for a write tells it from every other write: the kind, the document, the data with
every marker and its operand, the flag of a set and the paths of an update. In particular no map is
sent like a marker, whatever keys it has. -/
theorem encodeWrite_unambiguous :
    (∀ (a b : WriteOperation) (j : Json), a.Unmistakable → b.Unmistakable →
      encodeWrite a = .ok j → encodeWrite b = .ok j → a = b) ∧
    ∀ (fields : Fields) (marker : Value) (j : Json), marker.isSentinel →
      encodeValue (.map fields) = .ok j → encodeValue marker ≠ .ok j :=
  ⟨fun _ _ _ => eq_of_encodeWrite, fun _ _ _ => encodeValue_ne_of_isSentinel rfl⟩

def shop : DocumentKey := ⟨⟨["shops", "ada"]⟩, by decide, by decide⟩

/-- A map that looks like the record of a marker, and a marker. -/
def bookkeeping : Fields :=
  [("note", .map [(Value.tagKey, .string "increment")]),
    ("stats", .map [("visits", .increment (.integer 1))])]

def visit : WriteOperation :=
  .update shop bookkeeping
    [⟨["note"], by decide, by decide⟩, ⟨["stats", "visits"], by decide, by decide⟩]

/-- The same update with its paths read from texts. -/
def visitByTexts : WriteOperation :=
  .update shop bookkeeping
    (["note", "stats.visits"].filterMap fun text => (FieldPath.ofString text).toOption)

theorem encodeWrite_unambiguous_visit :
    visit.Unmistakable ∧ visitByTexts.Unmistakable ∧
      (∃ j, encodeWrite visit = .ok j ∧ encodeWrite visitByTexts = .ok j) ∧ visit = visitByTexts ∧
      ∃ j, encodeValue (.map [(Value.tagKey, .string "increment")]) = .ok j ∧
        encodeValue (.increment (.integer 1)) ≠ .ok j := by
  have clean : shop.path.Clean := by simp [shop, ResourcePath.Clean]
  have first : visit.Unmistakable :=
    ⟨clean, rfl, by simp [visit, WriteOperation.paths, FieldPath.DotFree]⟩
  have second : visitByTexts.Unmistakable := by
    refine ⟨clean, rfl, ?_⟩
    have read : visitByTexts.paths = visit.paths := by cbv
    rw [read]
    exact first.free
  have sent : encodeWrite visitByTexts = encodeWrite visit := by cbv
  refine ⟨first, second, ⟨_, rfl, sent⟩, ?_, _, rfl, ?_⟩
  · exact encodeWrite_unambiguous.1 visit visitByTexts _ first second rfl sent
  · exact encodeWrite_unambiguous.2 [(Value.tagKey, .string "increment")] _ _ rfl rfl

end Wire

end DocumentStore
