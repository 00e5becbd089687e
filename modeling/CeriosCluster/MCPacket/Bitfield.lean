import CeriosCluster.MCPacket.Buffer

/-!
# Bit fields

`BitField<Index, Bits>` overlays a stored number with its bits `Index` to `Index + Bits - 1`. An
assignment masks and shifts the value as a 32-bit `int`; the result of a shift by 32 or more is
whatever `wideShift` says.
-/

namespace CeriosCluster.MCPacket

/-- The width of `MinimumTypeHelper<LastBit>::type`. -/
def minimumType (lastBit : Nat) : Nat :=
  if lastBit ≤ 8 then 8 else if lastBit ≤ 16 then 16 else if lastBit ≤ 32 then 32 else 64

/-- `value << amount` on an `int`. -/
def shiftInt (wideShift : Word → Nat → Word) (value : Word) (amount : Nat) : Word :=
  if amount < 32 then value <<< amount else wideShift value amount

/-- `BitField<index, bits>::operator=` on an `int`, over the low bytes of the union's storage. -/
def BitField.assign (index bits : Nat) (wideShift : Word → Nat → Word) (raw : BitVec 64) (value : Word) :
    BitVec 64 :=
  let width := minimumType (index + bits)
  let mask := (1#32 <<< bits) - 1#32
  let stored : BitVec width :=
    (raw.setWidth width &&& ~~~(mask.setWidth width <<< index)) |||
      (shiftInt wideShift (value &&& mask) index).signExtend width
  (raw >>> width) <<< width ||| stored.setWidth 64

/-- `BitField<index, 1>::operator=` on a one-byte storage. -/
def BitField.assignFlag (index : Nat) (raw : Byte) (value : Bool) : Byte :=
  (raw &&& ~~~(1#8 <<< index)) ||| (if value then 1#8 <<< index else 0#8)

/-- `Position(x, y, z)` on storage that held `raw`. -/
def Position.make (wideShift : Word → Nat → Word) (raw : BitVec 64) (x : Word) (y : BitVec 16) (z : Word) :
    BitVec 64 :=
  let raw := BitField.assign 0 26 wideShift raw x
  let raw := BitField.assign 26 12 wideShift raw (y.signExtend 32)
  BitField.assign 38 26 wideShift raw z

def Position.default (wideShift : Word → Nat → Word) (raw : BitVec 64) : BitVec 64 :=
  Position.make wideShift raw 0 64 0

end CeriosCluster.MCPacket
