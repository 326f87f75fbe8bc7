import SqfMinifier.Token.Lexer

/-!
The scan that comment removal makes: it cuts a source into comments and the pieces that stay.

A `#` that is the first thing left on its line claims the rest of the line as a directive, and
only block comments may stand before it. A quote opens a literal when the scan respects
literals. Inside directives and literals nothing is a comment. Block comments do not nest, and
one that is never closed runs to the end of the source.
-/

namespace SqfMinifier

inductive PieceKind where
  | lineComment
  | blockComment
  | lineEnd
  | directive
  | literal
  | plain
  deriving DecidableEq, Repr

structure Piece where
  kind : PieceKind
  text : Text
  deriving DecidableEq, Repr

namespace Piece

def isComment (p : Piece) : Bool := p.kind == .lineComment || p.kind == .blockComment

/-- The shortest closed comment has four bytes: in `/*/` the star serves only once. -/
def isOpenComment (p : Piece) : Bool :=
  p.kind == .blockComment && (Text.byteSize p.text < 4 || !List.isSuffixOf ['*', '/'] p.text)

end Piece

namespace Scan

def throughQuote (q : Char) : Text → Text × Text
  | [] => ([], [])
  | c :: rest =>
    if c = q then ([c], rest)
    else (c :: (throughQuote q rest).1, (throughQuote q rest).2)

theorem throughQuote_length (q : Char) (t : Text) : (throughQuote q t).2.length ≤ t.length := by
  fun_induction throughQuote q t with
  | case1 => simp
  | case2 => simp
  | case3 c rest _ ih => simp only [List.length_cons]; omega

theorem afterLine_length (t : Text) : (Text.afterLine t).length ≤ t.length :=
  (List.dropWhile_sublist _).length_le

/-- The pieces of a source. `fresh` tells whether a `#` would be the first thing on its line. -/
def piecesFrom (aware fresh : Bool) (source : Text) : List Piece :=
  match _h : Token.lex source with
  | none => []
  | some (token, rest) =>
    match token.kind with
    | .lineComment => ⟨.lineComment, token.text⟩ :: piecesFrom aware false rest
    | .blockComment => ⟨.blockComment, token.text⟩ :: piecesFrom aware fresh rest
    | .newline => ⟨.lineEnd, token.text⟩ :: piecesFrom aware true rest
    | .hash =>
      if fresh then
        ⟨.directive, token.text ++ Text.restOfLine rest⟩ ::
          piecesFrom aware false (Text.afterLine rest)
      else ⟨.plain, token.text⟩ :: piecesFrom aware false rest
    | kind =>
      match if aware then kind.quote? else none with
      | some q =>
        ⟨.literal, token.text ++ (throughQuote q rest).1⟩ ::
          piecesFrom aware false (throughQuote q rest).2
      | none => ⟨.plain, token.text⟩ :: piecesFrom aware false rest
termination_by source.length
decreasing_by
  all_goals
    have := Token.lex_shorter _h
    first
      | exact this
      | exact Nat.lt_of_le_of_lt (afterLine_length _) this
      | exact Nat.lt_of_le_of_lt (throughQuote_length _ _) this

def pieces (aware : Bool) (source : Text) : List Piece := piecesFrom aware true source

def openCommentsFrom (start : Nat) : List Piece → List Nat
  | [] => []
  | piece :: rest =>
    (if piece.isOpenComment then [start] else []) ++
      openCommentsFrom (start + Text.byteSize piece.text) rest

end Scan

def removeComments (aware : Bool) (source : Text) : Text :=
  ((Scan.pieces aware source).filter fun p => !p.isComment).flatMap Piece.text

def openComments (aware : Bool) (source : Text) : List Nat :=
  Scan.openCommentsFrom 0 (Scan.pieces aware source)

end SqfMinifier
