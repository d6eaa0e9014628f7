/-!
# Places in a source file

A span is a range of bytes together with the lines and columns of its ends. Lines and columns
count from one, columns in bytes.

It follows `Span` with its `from_node`, and `node_text`.
-/

namespace SwiftRelations

/-- A line and a column, both counted from one. -/
structure Position where
  line : Nat
  col : Nat
  deriving DecidableEq, Repr, Inhabited

/-- A range of a source file: its bytes, the end excluded, and where its ends stand. -/
structure Span where
  startByte : Nat
  endByte : Nat
  startLine : Nat
  startCol : Nat
  endLine : Nat
  endCol : Nat
  deriving DecidableEq, Repr, Inhabited

/-- The span from the start of `first` to the end of `last`. -/
def Span.cover (first last : Span) : Span :=
  { first with endByte := last.endByte, endLine := last.endLine, endCol := last.endCol }

/-- Where a byte that follows `byte` stands, if `byte` stands at `pos`. -/
def Position.after (pos : Position) (byte : UInt8) : Position :=
  if byte == 10 then ⟨pos.line + 1, 1⟩ else ⟨pos.line, pos.col + 1⟩

/-- The bytes of a file, with the position of every offset up to the size of the file. -/
structure Source where
  bytes : ByteArray
  positions : Array Position

/-- A file given by its bytes. -/
def Source.ofBytes (bytes : ByteArray) : Source where
  bytes := bytes
  positions :=
    (bytes.foldl (fun (table, pos) byte =>
      let pos := pos.after byte
      (table.push pos, pos)) (#[(⟨1, 1⟩ : Position)], (⟨1, 1⟩ : Position))).1

/-- Where the byte at an offset stands. -/
def Source.position (source : Source) (offset : Nat) : Position :=
  source.positions[offset]?.getD ⟨1, 1⟩

/-- The span of a range of bytes. -/
def Source.span (source : Source) (start stop : Nat) : Span :=
  let first := source.position start
  let last := source.position stop
  { startByte := start, endByte := stop, startLine := first.line, startCol := first.col,
    endLine := last.line, endCol := last.col }

/-- The text of a range of bytes, empty when the bytes are no UTF-8. -/
def Source.text (source : Source) (start stop : Nat) : String :=
  (String.fromUTF8? (source.bytes.extract start stop)).getD ""

end SwiftRelations
