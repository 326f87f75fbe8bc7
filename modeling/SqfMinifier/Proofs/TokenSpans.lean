import SqfMinifier.Proofs.TokenLists
import Mathlib.Data.Set.Function
import Mathlib.Data.String.Basic

/-!
Spans as byte offsets into the encoded text. The spans of a text lie end to end over all its
bytes and cut no character, and the slices between their offsets are the tokens again.
-/

namespace SqfMinifier

namespace Text

def slice (t : Text) (start stop : Nat) : Text :=
  (String.Pos.Raw.extract (String.ofList t) ⟨start⟩ ⟨stop⟩).toList

def IsBoundary (t : Text) (offset : Nat) : Prop :=
  (String.Pos.Raw.mk offset).IsValid (String.ofList t)

theorem byteSize_eq_utf8Len (t : Text) : byteSize t = String.utf8Len t := by
  induction t with
  | nil => rfl
  | cons c t ih => rw [byteSize, String.utf8Len_cons, ih, Nat.add_comm]

theorem byteSize_append (a b : Text) : byteSize (a ++ b) = byteSize a + byteSize b := by
  simp only [byteSize_eq_utf8Len, String.utf8Len_append]

theorem byteSize_eq_utf8ByteSize (t : Text) : byteSize t = (String.ofList t).utf8ByteSize := by
  rw [byteSize_eq_utf8Len, String.utf8ByteSize_ofList]

theorem byteSize_pos {t : Text} (h : t ≠ []) : 0 < byteSize t := by
  rw [byteSize_eq_utf8Len]
  exact Nat.pos_of_ne_zero fun hzero => h (String.utf8Len_eq_zero.mp hzero)

theorem slice_append (a b c : Text) :
    slice (a ++ b ++ c) (byteSize a) (byteSize a + byteSize b) = b := by
  unfold slice
  rw [byteSize_eq_utf8Len, byteSize_eq_utf8Len, String.extract_of_valid, String.toList_ofList]

theorem is_boundary_append (a b : Text) : IsBoundary (a ++ b) (byteSize a) := by
  rw [IsBoundary, String.Pos.Raw.isValid_iff_exists_append]
  refine ⟨String.ofList a, String.ofList b, String.ofList_append, ?_⟩
  rw [byteSize_eq_utf8Len, String.rawEndPos_ofList]

end Text

/-- Non-empty spans, one right behind the other, from one byte offset to another. -/
def Span.Tiles : Nat → Nat → List Span → Prop
  | start, stop, [] => start = stop
  | start, stop, span :: rest =>
    span.start = start ∧ span.start < span.stop ∧ Tiles span.stop stop rest

namespace Token

open Text

def sliced (source : Text) : List Token :=
  (spans source).map fun span => ⟨span.kind, slice source span.start span.stop⟩

theorem shaped_ne_nil {token : Token} (h : token.Shaped) : token.text ≠ [] := by
  obtain ⟨c, tail, htext, -⟩ := shaped_head h
  simp [htext]

theorem spansFrom_tiles {ts : List Token} (h : ∀ token ∈ ts, token.text ≠ []) (start : Nat) :
    Span.Tiles start (start + byteSize (ts.flatMap text)) (spansFrom start ts) := by
  induction ts generalizing start with
  | nil => rfl
  | cons token ts ih =>
    rw [List.forall_mem_cons] at h
    have hpos := byteSize_pos h.1
    have htail := ih h.2 (start + byteSize token.text)
    rw [Nat.add_assoc, ← byteSize_append, ← List.flatMap_cons] at htail
    exact ⟨rfl, Nat.lt_add_of_pos_right hpos, htail⟩

/-- With the text in front of them counted in, spans cut out of the whole what they cut out of any
text around their own token. -/
theorem map_spansFrom {α : Type} (cut : Text → Span → α) {image : Token → α}
    (hcut : ∀ (a c : Text) (token : Token), cut (a ++ token.text ++ c)
      ⟨token.kind, byteSize a, byteSize a + byteSize token.text⟩ = image token)
    (before : Text) (ts : List Token) :
    (spansFrom (byteSize before) ts).map (cut (before ++ ts.flatMap text)) = ts.map image := by
  induction ts generalizing before with
  | nil => rfl
  | cons token ts ih =>
    have hwhole : before ++ (token :: ts).flatMap text =
        before ++ token.text ++ ts.flatMap text := by
      rw [List.flatMap_cons, List.append_assoc]
    have htail := ih (before ++ token.text)
    rw [byteSize_append] at htail
    rw [hwhole, spansFrom, List.map_cons, hcut, htail, List.map_cons]

theorem spansFrom_boundaries (before : Text) (ts : List Token) :
    ∀ span ∈ spansFrom (byteSize before) ts,
      IsBoundary (before ++ ts.flatMap text) span.start ∧
        IsBoundary (before ++ ts.flatMap text) span.stop := by
  induction ts generalizing before with
  | nil => simp [spansFrom]
  | cons token ts ih =>
    have htail := ih (before ++ token.text)
    have hstop := is_boundary_append (before ++ token.text) (ts.flatMap text)
    rw [byteSize_append, List.append_assoc] at htail hstop
    exact List.forall_mem_cons.mpr ⟨⟨is_boundary_append before _, hstop⟩, htail⟩

theorem sliced_eq_tokens (source : Text) : sliced source = tokens source := by
  have hcut : ∀ (a c : Text) (token : Token), Token.mk token.kind
      (slice (a ++ token.text ++ c) (byteSize a) (byteSize a + byteSize token.text)) = token := by
    intro a c token
    rw [slice_append]
  have hslices := map_spansFrom
    (fun whole span => Token.mk span.kind (slice whole span.start span.stop)) hcut []
    (tokens source)
  rwa [List.nil_append, flatMap_tokens, List.map_id'] at hslices

theorem sliced_inverse :
    Set.InvOn (List.flatMap text) sliced Set.univ {ts | WellFormed ts} := by
  constructor
  · intro source _
    rw [sliced_eq_tokens, flatMap_tokens]
  · intro ts hts
    rw [sliced_eq_tokens, tokens_flatMap hts]

/-- Cutting a text into tokens is a bijection onto the well-formed token lists, and joining the
token texts undoes it. -/
theorem sliced_bijective :
    (∀ source : Text,
      Span.Tiles 0 (String.ofList source).utf8ByteSize (spans source) ∧
      (∀ span ∈ spans source, IsBoundary source span.start ∧ IsBoundary source span.stop) ∧
      WellFormed (sliced source) ∧ (sliced source).flatMap text = source) ∧
    (∀ ts, WellFormed ts → sliced (ts.flatMap text) = ts) ∧
    Set.BijOn sliced Set.univ {ts | WellFormed ts} := by
  have hmaps : Set.MapsTo sliced Set.univ {ts | WellFormed ts} := by
    intro source _
    rw [sliced_eq_tokens]
    exact tokens_well_formed source
  refine ⟨fun source => ⟨?_, ?_, hmaps trivial, sliced_inverse.1 trivial⟩,
    fun ts hts => sliced_inverse.2 hts, sliced_inverse.bijOn hmaps fun _ _ => trivial⟩
  · have htiles := spansFrom_tiles
      (fun token h => shaped_ne_nil ((tokens_well_formed source).shaped token h)) 0
    rwa [Nat.zero_add, flatMap_tokens, byteSize_eq_utf8ByteSize] at htiles
  · have hbounds := spansFrom_boundaries [] (tokens source)
    rwa [List.nil_append, flatMap_tokens] at hbounds

def openCommentTokens : List Token :=
  [⟨.text, ['é', ';']⟩, ⟨.lineComment, ['/', '/', '"']⟩, ⟨.newline, ['\r', '\n']⟩, ⟨.hash, ['#']⟩,
    ⟨.blockComment, ['/', '*', '/']⟩]

theorem sliced_bijective_open_comment :
    WellFormed openCommentTokens ∧
      sliced (openCommentTokens.flatMap text) = openCommentTokens :=
  ⟨by decide, sliced_bijective.2.1 openCommentTokens (by decide)⟩

end Token

end SqfMinifier
