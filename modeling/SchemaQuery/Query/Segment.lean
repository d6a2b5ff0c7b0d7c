import SchemaQuery.Error

/-!
The lexical regions of query text. A text is cut into bare stretches, string literals, and stretches
that are copied as they stand: quoted identifiers, line comments and block comments. A quote inside a
literal or a quoted identifier is written twice; a line comment ends before its newline; a block
comment ends with the first `*/` behind its opening. A text whose last literal, identifier or block
comment is never closed has no segments.
-/

namespace SchemaQuery

/-- A region of query text. -/
inductive Segment where
  /-- Query text outside every literal, identifier and comment. -/
  | bare (text : List Char)
  /-- A comment or a quoted identifier, whole. -/
  | verbatim (text : List Char)
  /-- The inside of a string literal, doubled quotes as they stand. -/
  | literal (body : List Char)
deriving DecidableEq, Repr

namespace Segment

/-- A segment as it stands in the text. -/
def source : Segment → List Char
  | .bare t => t
  | .verbatim t => t
  | .literal b => '\'' :: b ++ ['\'']

/-- Where a scan of query text is. -/
inductive Zone where
  | bare
  | literal
  | identifier
  | lineComment
  | blockComment
deriving DecidableEq, Repr

/-- The segments after a bare stretch; an empty stretch is no segment. -/
def afterBare (text : List Char) (segments : List Segment) : List Segment :=
  if text = [] then segments else .bare text :: segments

/-- Puts one more character in front of the zone that a scan begins in. -/
def extend (c : Char) (scanned : List Char × List Segment) : List Char × List Segment :=
  (c :: scanned.1, scanned.2)

/-- Scans text that begins inside a zone: the rest of that zone, without the quote that closes a
literal, and the segments behind it. -/
def scan : Zone → List Char → Except Region (List Char × List Segment)
  | .bare, [] => .ok ([], [])
  | .bare, '\'' :: r =>
    (scan .literal r).map fun (body, segments) => ([], .literal body :: segments)
  | .bare, '"' :: r =>
    (scan .identifier r).map fun (body, segments) => ([], .verbatim ('"' :: body) :: segments)
  | .bare, '-' :: '-' :: r =>
    (scan .lineComment r).map fun (body, segments) =>
      ([], .verbatim ('-' :: '-' :: body) :: segments)
  | .bare, '/' :: '*' :: r =>
    (scan .blockComment r).map fun (body, segments) =>
      ([], .verbatim ('/' :: '*' :: body) :: segments)
  | .bare, c :: r => (scan .bare r).map (extend c)
  | .literal, [] => .error .literal
  | .literal, '\'' :: '\'' :: r => (scan .literal r).map fun s => extend '\'' (extend '\'' s)
  | .literal, '\'' :: r =>
    (scan .bare r).map fun (text, segments) => ([], afterBare text segments)
  | .literal, c :: r => (scan .literal r).map (extend c)
  | .identifier, [] => .error .identifier
  | .identifier, '"' :: '"' :: r => (scan .identifier r).map fun s => extend '"' (extend '"' s)
  | .identifier, '"' :: r =>
    (scan .bare r).map fun (text, segments) => (['"'], afterBare text segments)
  | .identifier, c :: r => (scan .identifier r).map (extend c)
  | .lineComment, [] => .ok ([], [])
  | .lineComment, '\n' :: r =>
    (scan .bare r).map fun (text, segments) => ([], afterBare ('\n' :: text) segments)
  | .lineComment, c :: r => (scan .lineComment r).map (extend c)
  | .blockComment, [] => .error .comment
  | .blockComment, '*' :: '/' :: r =>
    (scan .bare r).map fun (text, segments) => (['*', '/'], afterBare text segments)
  | .blockComment, c :: r => (scan .blockComment r).map (extend c)

/-- The segments of a text, or the region that it never closes. -/
def split (s : List Char) : Except Region (List Segment) :=
  (scan .bare s).map fun (text, segments) => afterBare text segments

example : split "a 'b''c'--d\n".toList =
    .ok [.bare "a ".toList, .literal "b''c".toList, .verbatim "--d".toList, .bare "\n".toList] :=
  rfl
example : split "/*/".toList = .error .comment := rfl
example : split "\"a\"\"".toList = .error .identifier := rfl

end Segment

end SchemaQuery
