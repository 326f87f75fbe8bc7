import SqfMinifier.Emit
import SqfMinifier.Proofs.JsonReading
import SqfMinifier.Proofs.TokenSpans

/-!
The JSON dump of a text is a document: an array with one object for each token, which says the kind
of the token and where it starts and ends. The bytes between these offsets, set side by side, are
the bytes of the text.
-/

namespace SqfMinifier

open Json

section Objects

def Json.natural? : Json → Option Nat
  | .number mantissa 0 => mantissa.toNat?
  | _ => none

def Json.tokenKind? : Json → Option TokenKind
  | .string name => TokenKind.all.find? (·.name.toList == name)
  | _ => none

namespace Span

def kindKey : Text := "token".toList

def startKey : Text := "start".toList

def stopKey : Text := "end".toList

def toJson (s : Span) : Json :=
  .object [(kindKey, .string s.kind.name.toList), (startKey, .number s.start 0),
    (stopKey, .number s.stop 0)]

/-- The span that an object shows, in whatever order its members stand. -/
def ofJson? : Json → Option Span
  | .object members => do
    let kind ← members.lookup kindKey >>= Json.tokenKind?
    let start ← members.lookup startKey >>= Json.natural?
    let stop ← members.lookup stopKey >>= Json.natural?
    some ⟨kind, start, stop⟩
  | _ => none

def shownMember (key value : Text) : Text := '"' :: key ++ ['"', ':', ' '] ++ value

def shownObject (s : Span) : Text :=
  enclosed '\x7b' '\x7d' ['\n', ' ', ' ', ' ', ' '] ['\n', ' ', ' ']
    [shownMember kindKey ('"' :: s.kind.name.toList ++ ['"']),
      shownMember startKey (Nat.toDigits 10 s.start), shownMember stopKey (Nat.toDigits 10 s.stop)]

theorem showJson_eq (s : Span) : s.showJson = ' ' :: ' ' :: s.shownObject := by
  have hshown : s.showJson =
      ([' ', ' ', '\x7b', '\n', ' ', ' ', ' ', ' ', '"'] ++ kindKey ++ ['"', ':', ' ', '"']) ++
        s.kind.name.toList ++
        (['"', ',', '\n', ' ', ' ', ' ', ' ', '"'] ++ startKey ++ ['"', ':', ' ']) ++
        Nat.toDigits 10 s.start ++
        ([',', '\n', ' ', ' ', ' ', ' ', '"'] ++ stopKey ++ ['"', ':', ' ']) ++
        Nat.toDigits 10 s.stop ++ ['\n', ' ', ' ', '\x7d'] := rfl
  rw [hshown]
  simp only [shownObject, shownMember, enclosed, intercalate_cons_eq_flatMap, List.flatMap_cons,
    List.flatMap_nil, List.cons_append, List.append_assoc, List.nil_append, List.append_nil]

theorem ofJson?_toJson (s : Span) : ofJson? s.toJson = some s := by
  have hkind : Json.tokenKind? (.string s.kind.name.toList) = some s.kind := by
    cases s.kind <;> decide
  have hstart : (startKey == kindKey) = false := by decide
  have hstop : (stopKey == kindKey) = false ∧ (stopKey == startKey) = false := by decide
  simp [ofJson?, toJson, List.lookup_cons, hstart, hstop, hkind, Json.natural?, Int.toNat?]

end Span

theorem plain_name (k : TokenKind) : Plain k.name.toList := by
  cases k <;> decide

theorem spells_span (depth : Nat) (s : Span) :
    Spells (value? (depth + 1)) s.toJson s.shownObject := by
  have hkeys : Plain Span.kindKey ∧ Plain Span.startKey ∧ Plain Span.stopKey := by decide
  have hkind := spells_member hkeys.1 (spells_string depth (plain_name s.kind))
  have hstart := spells_member hkeys.2.1 (spells_number depth s.start)
  have hstop := spells_member hkeys.2.2 (spells_number depth s.stop)
  exact spells_object hkind (.cons hstart (.cons hstop .nil)) (by decide) (by decide)

theorem dumpJson_eq {source : Text} {s : Span} {rest : List Span}
    (h : Token.spans source = s :: rest) :
    Token.dumpJson source =
      enclosed '[' ']' ['\n', ' ', ' '] ['\n'] (s.shownObject :: rest.map Span.shownObject) := by
  have hopening : "[\n".toList = ['[', '\n'] := by decide
  have hclosing : "\n]".toList = ['\n', ']'] := by decide
  rw [Token.dumpJson, h, List.map_cons, hopening, hclosing]
  simp only [enclosed, intercalate_cons_eq_flatMap, Span.showJson_eq, List.flatMap_map]
  simp

/-- The dump is a document, and its value is the array of the spans. -/
theorem document?_dumpJson (source : Text) :
    document? (Token.dumpJson source) = some (.array ((Token.spans source).map Span.toJson)) := by
  cases h : Token.spans source with
  | nil =>
    rw [Token.dumpJson, h]
    rfl
  | cons s rest =>
    have hrest : List.Forall₂ (Spells (value? (nestingLimit - 1))) (rest.map Span.toJson)
        (rest.map Span.shownObject) := by
      rw [List.forall₂_map_left_iff, List.forall₂_map_right_iff, List.forall₂_same]
      intro span _
      exact spells_span (nestingLimit - 2) span
    rw [dumpJson_eq h, List.map_cons]
    exact document?_of_spells
      (spells_array (spells_span (nestingLimit - 2) s) hrest (by decide) (by decide))

end Objects

section Bytes

open Token Text

def Text.bytes (t : Text) : List UInt8 := (String.ofList t).toByteArray.data.toList

theorem Text.bytes_append (a b : Text) : bytes (a ++ b) = bytes a ++ bytes b := by
  simp only [bytes, String.ofList_append, String.toByteArray_append, ByteArray.toList_data_append]

theorem Text.length_bytes (t : Text) : (bytes t).length = byteSize t := by
  rw [byteSize_eq_utf8ByteSize, bytes, Array.length_toList]
  rfl

theorem Text.extract_bytes (a b c : Text) :
    (bytes (a ++ b ++ c)).extract (byteSize a) (byteSize a + byteSize b) = bytes b := by
  rw [bytes_append, bytes_append, ← length_bytes a, ← length_bytes b, List.extract_eq_take_drop,
    List.append_assoc, List.drop_left, Nat.add_sub_cancel_left, List.take_left]

theorem bytes_flatMap (ts : List Token) :
    (ts.map fun token => bytes token.text).flatten = bytes (ts.flatMap text) := by
  induction ts with
  | nil => rfl
  | cons token ts ih => rw [List.map_cons, List.flatten_cons, ih, ← bytes_append, List.flatMap_cons]

theorem spans_bytes (source : Text) :
    (Token.spans source).flatMap (fun span => (bytes source).extract span.start span.stop) =
      bytes source := by
  have hcut := map_spansFrom (fun whole span => (bytes whole).extract span.start span.stop)
    (fun a c token => extract_bytes a token.text c) [] (tokens source)
  rw [List.nil_append, flatMap_tokens] at hcut
  calc (Token.spans source).flatMap (fun span => (bytes source).extract span.start span.stop)
      = ((tokens source).map fun token => bytes token.text).flatten := congrArg List.flatten hcut
    _ = bytes source := by rw [bytes_flatMap, flatMap_tokens]

/-- A dump is read back as the spans of its source, and these cut the source into pieces that give
its bytes when they are set side by side. -/
theorem render_json_round_trip (aware : Bool) (source : Text) :
    document? (render .tokensJson aware source) =
        some (.array ((Token.spans source).map Span.toJson)) ∧
      ((Token.spans source).map Span.toJson).mapM Span.ofJson? = some (Token.spans source) ∧
      (Token.spans source).flatMap (fun span => (bytes source).extract span.start span.stop) =
        bytes source := by
  refine ⟨document?_dumpJson source, ?_, spans_bytes source⟩
  have hread : Span.ofJson? ∘ Span.toJson = some := funext Span.ofJson?_toJson
  rw [List.mapM_map, hread]
  exact List.mapM_pure.trans (congrArg some (List.map_id' _))

end Bytes

end SqfMinifier
