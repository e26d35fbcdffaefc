import Cascade.Error
import Cascade.Node.Info

/-!
# Renderings

What printing a node gives: the chunks written, in order, and why the printer stopped, if it
did not come to the end.  Renderings are put one after the other with `++`; nothing follows a
rendering that stopped, and nothing that was written is ever taken back.
-/

namespace Cascade

/-- A piece of output and the place it comes from. -/
structure Chunk where
  text : String
  file : Option FileInfo := none
  index : Option Nat := none
deriving DecidableEq, Repr

/-- The chunks written, and why the printer stopped early, if it did. -/
structure Rendering where
  chunks : List Chunk
  halt : Option Halt := none
deriving DecidableEq, Repr

namespace Rendering

/-- Nothing written. -/
def empty : Rendering :=
  ⟨[], none⟩

/-- One chunk without a place. -/
def ofText (text : String) : Rendering :=
  ⟨[{ text }], none⟩

/-- One chunk at a place. -/
def chunk (text : String) (file : Option FileInfo) (index : Option Nat) : Rendering :=
  ⟨[⟨text, file, index⟩], none⟩

/-- The printer stops. -/
def stop (halt : Halt) : Rendering :=
  ⟨[], some halt⟩

/-- One rendering after the other, unless the first one stopped. -/
def append (a b : Rendering) : Rendering :=
  match a.halt with
  | some _ => a
  | none => ⟨a.chunks ++ b.chunks, b.halt⟩

instance : Append Rendering := ⟨append⟩

/-- Changes the reason of an early stop. -/
def mapHalt (f : Halt → Halt) (r : Rendering) : Rendering :=
  { r with halt := r.halt.map f }

/-- The whole text, or the reason why the printer stopped. -/
def text (r : Rendering) : Except Halt String :=
  match r.halt with
  | some halt => .error halt
  | none => .ok (String.join (r.chunks.map Chunk.text))

/-- The texts of several renderings put together, or the first reason to stop. -/
def joinTexts : List Rendering → Except Halt String
  | [] => .ok ""
  | r :: rest =>
    match r.text with
    | .error halt => .error halt
    | .ok text =>
      match joinTexts rest with
      | .error halt => .error halt
      | .ok texts => .ok (text ++ texts)

/-- What follows is given the texts of several renderings put together. -/
def aside (parts : List Rendering) (k : String → Rendering) : Rendering :=
  match joinTexts parts with
  | .error halt => .stop halt
  | .ok text => k text

end Rendering

end Cascade
