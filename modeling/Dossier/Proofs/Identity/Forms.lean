import Mathlib
import Dossier.Identity.Json
import Dossier.Proofs.Identity.Text
import Dossier.Proofs.Json.Scanned
import Dossier.Proofs.Value.Equivalence

/-!
# The forms of identities

An identity has a text, a stored form and a JSON form. Only the text is read for a given scheme; the
scheme of the others has to be told from their shape.

* `Identity.fromValue_toValue`, `Identity.same_toValue_iff`: stored forms are read back, and only one
  identity has a given one;
* `Identity.restored?_extended`: the extended form of an object id, in values and in JSON;
* `Identity.ofJson?_toJson`, **`Identity.parse?_jsonText`**: JSON, as values and as texts;
* **`Identity.survive`**: identities survive every representation.
-/

namespace Dossier

namespace Identity

/-! ## Stored forms -/

theorem guess?_uuid_text (id : Uuid) : guess? id.text = some (uuid id) := by
  rw [guess?, Uuid.parse?_text]

/-- **The kind of a stored form tells the scheme**, so that it is read back. -/
theorem fromValue_toValue (id : Identity) :
    (fromValue id.toValue : Except StoreError Identity) = .ok id := by
  cases id with
  | object id => rfl
  | integer n => rfl
  | uuid id => simp only [toValue, fromValue, guess?_uuid_text]

/-- **Only one identity has a given stored form.** -/
theorem same_toValue_iff (a b : Identity) : a.toValue.same b.toValue = true ↔ a = b := by
  have hatom : a.toValue.isAtom = true := by cases a <;> rfl
  have hdouble : a.toValue.kind ≠ .double := by cases a <;> exact by rintro ⟨⟩
  rw [Value.same_iff_of_isAtom hatom hdouble]
  cases a <;> cases b <;> simp [toValue]
  case uuid.uuid a b => exact ⟨Uuid.text_injective, congrArg Uuid.text⟩

theorem restored?_extended (complete : Bool) (id : ObjectId) :
    Value.restored? complete (.document [("$oid", .string id.text)]) = some (.objectId id) := by
  have hkey : Form.ofKey? "$oid" = some .objectId := Form.ofKey?_key .objectId
  rw [Value.restored?, Value.restoredFields?.eq_def]
  simp [hkey, Form.read?, Form.ofText?, ObjectId.parse?_text]

theorem fromValue_extended (id : ObjectId) :
    (fromValue (.document [("$oid", .string id.text)]) : Except StoreError Identity) =
      .ok (object id) := by
  simp only [fromValue, restore, restored?_extended]
  rfl

/-! ## JSON -/

/-- **The JSON form of an identity is read back.** -/
theorem ofJson?_toJson (id : Identity) : ofJson? id.toJson = some id := by
  cases id with
  | object id =>
    have hvalue : (Json.object [("$oid", .string id.text)]).asValue? =
        some (.document [("$oid", .string id.text)]) := rfl
    rw [toJson, ofJson?, hvalue, Option.bind_some, restored?_extended]
  | integer n =>
    rw [toJson, Json.ofInt64_eq]
    by_cases hn : n.toInt < 0
    · rw [if_pos hn, ofJson?]
    · rw [if_neg hn, ofJson?, Json.toInt_toUInt64 (Int.not_lt.mp hn), Width.int64?_toInt,
        Option.map_some]
  | uuid id => rw [toJson, ofJson?, guess?_uuid_text]

/-- The JSON text without blanks. -/
def jsonText : Identity → String
  | object id => "\x7b\"$oid\":\"" ++ id.text ++ "\"\x7d"
  | integer n => toString n.toInt
  | uuid id => "\"" ++ id.text ++ "\""

theorem isPlain_digit {d : ℕ} (h : d < 16) : Json.Token.IsPlain (Hex.digit d) := by
  interval_cases d <;> decide

theorem forall_isPlain_objectId_text (id : ObjectId) :
    ∀ c ∈ id.text.toList, Json.Token.IsPlain c := by
  intro c hc
  rw [ObjectId.text, String.toList_ofList] at hc
  obtain ⟨d, hd, rfl⟩ := Hex.exists_digit_of_mem_encode hc
  exact isPlain_digit hd

theorem forall_isPlain_uuid_text (id : Uuid) : ∀ c ∈ id.text.toList, Json.Token.IsPlain c := by
  intro c hc
  obtain rfl | ⟨d, hd, rfl⟩ := Uuid.eq_or_exists_digit_of_mem_text hc
  · decide
  · exact isPlain_digit hd

/-- The tokens of the JSON text. -/
def jsonTokens : Identity → List Json.Token
  | object id => [.openObject, .text "$oid", .colon, .text id.text, .closeObject]
  | integer n => [.scalar (.ofInt64 n)]
  | uuid id => [.text id.text]

theorem reads_jsonText_object (id : ObjectId) :
    Json.Token.Reads (object id).jsonText.toList (object id).jsonTokens := by
  have hkey : ∀ c ∈ ['$', 'o', 'i', 'd'], Json.Token.IsPlain c := by
    simp [Json.Token.IsPlain]
  have hid := Json.Token.Reads.quoted (forall_isPlain_objectId_text id)
  rw [String.ofList_toList] at hid
  have hlist : (object id).jsonText.toList =
      ['{'] ++ ('"' :: (['$', 'o', 'i', 'd'] ++ ['"']) ++
        ([':'] ++ ('"' :: (id.text.toList ++ ['"']) ++ ['}']))) := by
    simp [jsonText]
  rw [hlist]
  exact (Json.Token.Reads.punctuation rfl).append <| (Json.Token.Reads.quoted hkey).append <|
    (Json.Token.Reads.punctuation rfl).append <| hid.append (Json.Token.Reads.punctuation rfl)

theorem scan?_jsonText (id : Identity) : Json.Token.scan? id.jsonText = some id.jsonTokens := by
  cases id with
  | object id => exact (reads_jsonText_object id).scan?
  | integer n => rw [jsonText, Json.Token.scan?_toString, jsonTokens]
  | uuid id =>
    have hlist : (uuid id).jsonText.toList = '"' :: (id.text.toList ++ ['"']) := by
      simp [jsonText]
    have hid := Json.Token.Reads.quoted (forall_isPlain_uuid_text id)
    rw [String.ofList_toList, ← hlist] at hid
    exact hid.scan?

/-- **The JSON text of an identity stands for its JSON form.** -/
theorem parse?_jsonText (id : Identity) : Json.parse? id.jsonText = some id.toJson := by
  rw [Json.parse?, scan?_jsonText]
  cases id <;> rfl

theorem parseJson_of_toJson {id : Identity} {source : String}
    (h : Json.parse? source = some id.toJson) : parseJson source = .ok id := by
  simp only [parseJson, h, ofJson?_toJson]

/-! ## All forms -/

theorem parse_eq_ok {scheme : Scheme} {source : String} {id : Identity} :
    parse scheme source = .ok id ↔ parse? scheme source = some id := by
  rw [parse]
  cases parse? scheme source <;> simp

theorem parse_eq_error {scheme : Scheme} {source : String} {cause : StoreError} :
    parse scheme source = .error cause ↔
      parse? scheme source = none ∧ cause = .invalidId scheme source := by
  rw [parse]
  cases parse? scheme source <;> simp [eq_comm]

/-- **Identities survive every representation.** Each is read back, with its scheme, from its text,
from its stored form, from the extended form of an object id and from JSON; only one identity has a
given stored form; whatever text is read for an identity, its own text is read for it too; and a
text that is refused leaves the identity that was to be reset. -/
theorem survive :
    (∀ id : Identity, parse id.scheme id.text = .ok id) ∧
    (∀ id : Identity, ToValue.toValue id = .ok id.toValue ∧ fromValue id.toValue = .ok id) ∧
    (∀ id : ObjectId, fromValue (.document [("$oid", .string id.text)]) = .ok (object id)) ∧
    (∀ id : Identity, ofJson? id.toJson = some id ∧ Json.parse? id.jsonText = some id.toJson ∧
      ∀ source, Json.parse? source = some id.toJson → parseJson source = .ok id) ∧
    (∀ a b : Identity, a.toValue.same b.toValue = true ↔ a = b) ∧
    (∀ scheme source id, parse scheme source = .ok id →
      id.scheme = scheme ∧ parse scheme id.text = .ok id) ∧
    ∀ (id : Identity) source cause, parse id.scheme source = .error cause →
      cause = .invalidId id.scheme source ∧ id.reset source = (.error cause, id) := by
  refine ⟨fun id => parse_eq_ok.mpr (parse?_text id),
    fun id => ⟨toValue_eq id, fromValue_toValue id⟩, fromValue_extended, fun id => ⟨ofJson?_toJson id, parse?_jsonText id,
      fun _ => parseJson_of_toJson⟩, same_toValue_iff, ?read, ?refused⟩
  case read =>
    intro scheme source id h
    obtain rfl := scheme_of_parse? (parse_eq_ok.mp h)
    exact ⟨rfl, parse_eq_ok.mpr (parse?_text id)⟩
  case refused =>
    intro id source cause h
    obtain ⟨-, hcause⟩ := parse_eq_error.mp h
    exact ⟨hcause, by rw [reset, h]⟩

/-- A sign is read and not written again; letters are refused. -/
theorem survive_signed :
    parse .integer "+7" = .ok (integer 7) ∧ parse .integer (integer 7).text = .ok (integer 7) ∧
    parse .integer "12a" = .error (.invalidId .integer "12a") ∧
    (integer 7).reset "12a" = (.error (.invalidId .integer "12a"), integer 7) := by
  have hread : parse .integer "+7" = .ok (integer 7) := by rfl
  have hrefused : parse (integer 7).scheme "12a" = .error (.invalidId .integer "12a") := by rfl
  obtain ⟨-, -, -, -, -, read, refused⟩ := survive
  exact ⟨hread, (read _ _ _ hread).2, hrefused, (refused _ _ _ hrefused).2⟩

end Identity

end Dossier
