import ComplexReckoner.Text.Utf8

/-! # Lines

A text is read line by line: each reading runs through the next line feed, and a last line may lack
one. The same cut serves characters and bytes. -/

namespace ComplexReckoner

/-- Cuts a list after every element that ends a piece. A last piece without such an end is kept when
it is not empty. -/
def piecesThrough {α : Type} (ends : α → Bool) : List α → List (List α)
  | [] => []
  | a :: rest =>
      if ends a then [a] :: piecesThrough ends rest
      else
        match piecesThrough ends rest with
        | [] => [[a]]
        | piece :: later => (a :: piece) :: later

namespace Text

/-- The lines of a text, each with the line feed that ends it. -/
def readings (text : Text) : List Text := piecesThrough (· == '\n') text

/-- A line without its ending, which is a line feed or a carriage return and a line feed. -/
def withoutEnding (line : Text) : Text :=
  match line.reverse with
  | '\n' :: '\r' :: rest => rest.reverse
  | '\n' :: rest => rest.reverse
  | _ => line

/-- The lines of a text without their endings. -/
def lines (text : Text) : List Text := (readings text).map withoutEnding

/-- The lines of an input of bytes, each with its line feed, decoded one by one. -/
def readingsOfBytes (bytes : List UInt8) : List (Option Text) :=
  (piecesThrough (· == 0x0A) bytes).map ofUtf8?

end Text

end ComplexReckoner
