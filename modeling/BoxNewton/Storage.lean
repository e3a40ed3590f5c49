/-!
# Storage

Whatever holds many items keeps them in one block of storage. Addresses have sixty-four bits, and a
block is shorter than half of what they can tell apart. A longer block is refused at once, when room
for the items is asked for, however few of them would ever come.

A count is kept in one word, which has sixty-four bits as well. A count that has outgrown its word
is refused and not reduced.
-/

set_option autoImplicit false

namespace BoxNewton.Storage

/-- A number of bytes that no block has. -/
def blockBound : Nat := UInt64.size / 2

/-- Holds when one block has room for `count` items of `width` bytes. -/
def Fits (count width : Nat) : Prop := count * width < blockBound

instance (count width : Nat) : Decidable (Fits count width) := Nat.decLt _ _

/-- Holds when one word has room for a count. -/
def FitsWord (count : Nat) : Prop := count < UInt64.size

instance (count : Nat) : Decidable (FitsWord count) := Nat.decLt _ _

/-- The bytes that a scalar or an index takes, at most. -/
def entryWidth : Nat := 8

end BoxNewton.Storage
