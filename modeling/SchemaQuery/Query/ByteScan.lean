import SchemaQuery.Query.Segment
import SchemaQuery.Text.Utf8

/-!
Finding the segments of a text on its bytes. A cursor goes over the bytes of the text; at a byte that opens
a region it looks for the end of that region, slices the region out of the text, together with the bare
text in front of it, and goes on behind. It may stand inside a character, where no slice can begin or end.
-/

namespace SchemaQuery.ByteScan

open Text

/-- Why a scan gives up. -/
inductive Fault where
  /-- A slice begins or ends outside the text or inside a character. -/
  | slice
  /-- A region is opened and never closed. -/
  | unclosed (region : Region)
deriving DecidableEq, Repr

/-- The part of a text between two offsets, which have to be good. -/
def slice (text : String) (start stop : Nat) : Except Fault String :=
  match slice? text start stop with
  | some part => .ok part
  | none => .error .slice

/-- The offset of the first quote that is not doubled. -/
def quotedEnd? (quote : UInt8) : List UInt8 → Option Nat
  | [] => none
  | [b] => if b = quote then some 0 else none
  | b :: d :: r =>
    if b = quote then if d = quote then (quotedEnd? quote r).map (2 + ·) else some 0
    else (quotedEnd? quote (d :: r)).map (1 + ·)

/-- The offset of the quote that closes the region which a quote opens. -/
def closing (text : String) (index : Nat) (quote : Char) (region : Region) : Except Fault Nat := do
  let rest ← slice text (index + 1) text.utf8ByteSize
  match quotedEnd? quote.toUInt8 (bytes rest) with
  | some n => .ok (index + 1 + n)
  | none => .error (.unclosed region)

/-- The literal that begins at an offset, and where it ends. -/
def literalAt (text : String) (index : Nat) : Except Fault (Nat × Segment) := do
  let close ← closing text index '\'' .literal
  let body ← slice text (index + 1) close
  return (close + 1, .literal body.toList)

/-- The quoted identifier that begins at an offset, and where it ends. -/
def identifierAt (text : String) (index : Nat) : Except Fault (Nat × Segment) := do
  let close ← closing text index '"' .identifier
  let whole ← slice text index (close + 1)
  return (close + 1, .verbatim whole.toList)

/-- The line comment that begins at an offset, and where it ends. -/
def lineCommentAt (text : String) (index : Nat) : Except Fault (Nat × Segment) := do
  let rest ← slice text index text.utf8ByteSize
  let stop := ((offset? ['\n'] rest.toList).map (index + ·)).getD text.utf8ByteSize
  let whole ← slice text index stop
  return (stop, .verbatim whole.toList)

/-- The block comment that begins at an offset, and where it ends. -/
def blockCommentAt (text : String) (index : Nat) : Except Fault (Nat × Segment) := do
  let rest ← slice text (index + 2) text.utf8ByteSize
  match offset? ['*', '/'] rest.toList with
  | some n =>
    let stop := index + 2 + n + 2
    let whole ← slice text index stop
    return (stop, .verbatim whole.toList)
  | none => .error (.unclosed .comment)

/-- The region that begins at an offset, and where it ends, if one begins there. -/
def regionAt (text : String) (index : Nat) : Except Fault (Option (Nat × Segment)) :=
  let here := (bytes text)[index]?
  let next := (bytes text)[index + 1]?
  if here = some '\''.toUInt8 then some <$> literalAt text index
  else if here = some '"'.toUInt8 then some <$> identifierAt text index
  else if here = some '-'.toUInt8 ∧ next = some '-'.toUInt8 then some <$> lineCommentAt text index
  else if here = some '/'.toUInt8 ∧ next = some '*'.toUInt8 then some <$> blockCommentAt text index
  else .ok none

/-- How far a scan is: the byte it looks at, the first byte that is in no segment yet, and the segments
in front of that. -/
structure Cursor where
  index : Nat
  bareStart : Nat
  found : List Segment
deriving DecidableEq, Repr

/-- A scan that begins. -/
def Cursor.start : Cursor := ⟨0, 0, []⟩

/-- The segments found, with the bare text between two offsets behind them if there is any. -/
def withBare (text : String) (start stop : Nat) (found : List Segment) :
    Except Fault (List Segment) := do
  if start < stop then
    let bare ← slice text start stop
    return found ++ [.bare bare.toList]
  else return found

/-- One step of a scan: over the region that begins here, or over one byte. -/
def step (text : String) (cursor : Cursor) : Except Fault Cursor := do
  match ← regionAt text cursor.index with
  | none => return { cursor with index := cursor.index + 1 }
  | some (stop, segment) =>
    let found ← withBare text cursor.bareStart cursor.index cursor.found
    return ⟨stop, stop, found ++ [segment]⟩

/-- What a scan gives once it is at the end of the text, if it gets there in so many steps. -/
def run (text : String) : Nat → Cursor → Option (Except Fault (List Segment))
  | 0, cursor =>
    if cursor.index < text.utf8ByteSize then none
    else some (withBare text cursor.bareStart text.utf8ByteSize cursor.found)
  | steps + 1, cursor =>
    if cursor.index < text.utf8ByteSize then
      match step text cursor with
      | .ok next => run text steps next
      | .error fault => some (.error fault)
    else some (withBare text cursor.bareStart text.utf8ByteSize cursor.found)

end SchemaQuery.ByteScan
