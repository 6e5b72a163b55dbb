/-!
# Output

Markup is written to an output that may have room for so many bytes only. When the room is used up,
the bytes that still fit are taken and the write is refused. The bytes that are taken may be held in
a buffer for some time, and then it is only known at the end how many of them got through.

## Main definitions

* `Output` — what has been written, and how much room is left
* `Output.write` — writing bytes
* `Output.flush`, `Output.delivered` — whether what was taken gets through, and what of it does
-/

namespace DeckScript

/-- An output with what has been written to it. -/
structure Output where
  bytes : ByteArray
  /-- How many more bytes it takes; none if there is no limit. -/
  room : Option Nat
  /-- How many of the bytes that it takes get through; none if all of them do. -/
  reach : Option Nat
  /-- Why a write or a flush is refused. -/
  refusal : String

namespace Output

/-- An output that takes everything. -/
def unlimited : Output := ⟨.empty, none, none, ""⟩

/-- An output that takes `n` bytes. -/
def limited (n : Nat) (refusal : String) : Output := ⟨.empty, some n, none, refusal⟩

/-- The output after bytes are written to it, and whether it took all of them. -/
def write (o : Output) (data : ByteArray) : Output × Bool :=
  match o.room with
  | none => ({ o with bytes := o.bytes ++ data }, true)
  | some n =>
    if data.size ≤ n then ({ o with bytes := o.bytes ++ data, room := some (n - data.size) }, true)
    -- The first bytes are out before the refusal is known.
    else ({ o with bytes := o.bytes ++ data.extract 0 n, room := some 0 }, false)

/-- The reason why not all that was taken gets through. -/
def flush (o : Output) : Option String :=
  match o.reach with
  | none => none
  | some n => if o.bytes.size ≤ n then none else some o.refusal

/-- The bytes that get through. -/
def delivered (o : Output) : ByteArray :=
  match o.reach with
  | none => o.bytes
  | some n => o.bytes.extract 0 n

/-- What has been written, as text. -/
def text (o : Output) : String := (String.fromUTF8? o.bytes).getD ""

end Output

end DeckScript
