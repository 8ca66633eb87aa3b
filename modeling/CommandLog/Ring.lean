import CommandLog.Entry

/-!
# The ring of retained entries

A ring of `N` slots holds the newest `N` entries ever appended. Slots are filled in turn and
wrap around: when every slot is live, an append first evicts the oldest entry and then takes
over its slot.

* `CommandLog.Ring` – the slots, the slot written next, the slot of the oldest entry, whether
  every slot is live, and two running counts;
* `CommandLog.Ring.create` – a ring without entries; a capacity of zero is refused;
* `CommandLog.Ring.append` – one more entry, and the entry that it evicts;
* `CommandLog.Ring.entries` – **the view of a ring**, its live entries, oldest first;
* `CommandLog.Ring.get?` and `CommandLog.Ring.slot?` – one live entry by its retention position
  and by its slot.

The write position and the position of the oldest entry coincide both on an empty and on a full
ring, which is why fullness is stored and not derived.
-/

namespace CommandLog

/-- A ring of `N` slots. -/
structure Ring (N : Nat) where
  /-- The slots; a slot that was never written holds nothing. -/
  slots : Vector (Option Entry) N
  /-- The slot that the next append writes. -/
  head : Nat
  /-- The slot of the oldest live entry. -/
  tail : Nat
  /-- Whether every slot is live. -/
  full : Bool
  /-- Total number of bytes in live entries. -/
  totalBytes : Nat
  /-- Number of appends ever made, evicted entries included. It has no bound here; a counter of 64
  bits holds it for fewer than `2 ^ 64` appends. -/
  writes : Nat

namespace Ring

/-- Why a ring cannot be built. -/
inductive CapacityError where
  /-- There is no slot to write to. -/
  | zero
deriving DecidableEq, Repr

/-- The wording of a capacity error. -/
def CapacityError.message : CapacityError → String
  | .zero => "CircularLog capacity must be > 0"

variable {N : Nat}

/-- The ring without entries. -/
def empty : Ring N where
  slots := Vector.replicate N none
  head := 0
  tail := 0
  full := false
  totalBytes := 0
  writes := 0

instance : Inhabited (Ring N) := ⟨empty⟩

/-- A ring of the given capacity, without entries. -/
def create (N : Nat) : Except CapacityError (Ring N) :=
  if N = 0 then .error .zero else .ok empty

/-- Number of live entries. -/
def size (r : Ring N) : Nat :=
  if r.full then N else (r.head + N - r.tail) % N

/-- Whether there is no live entry. -/
def isEmpty (r : Ring N) : Bool :=
  !r.full && r.head == r.tail

/-- What a slot holds, live or not. -/
def at? (r : Ring N) (slot : Nat) : Option Entry :=
  (r.slots[slot]?).join

/-- **One more entry.** On a full ring the oldest entry gives way and is handed back; its slot is
emptied before the new entry is written. -/
def append (r : Ring N) (e : Entry) : Option Entry × Ring N :=
  let evicted := if r.full then r.at? r.tail else none
  let slots := if r.full then r.slots.setIfInBounds r.tail none else r.slots
  let tail := if r.full then (r.tail + 1) % N else r.tail
  let head := (r.head + 1) % N
  let freed := (evicted.map Entry.size).getD 0
  (evicted,
    { slots := slots.setIfInBounds r.head (some e)
      head
      tail
      full := head == tail
      totalBytes := r.totalBytes - freed + e.size
      writes := r.writes + 1 })

/-- The slots of the live entries, oldest first. -/
def liveSlots (r : Ring N) : List Nat :=
  (List.range r.size).map fun i => (r.tail + i) % N

/-- The live entries with their slots, oldest first. -/
def live (r : Ring N) : List (Nat × Entry) :=
  r.liveSlots.filterMap fun slot => (r.at? slot).map (slot, ·)

/-- **The live entries**, oldest first. -/
def entries (r : Ring N) : List Entry :=
  r.live.map (·.2)

/-- The live entry at a retention position, counted from the oldest. -/
def get? (r : Ring N) (index : Nat) : Option Entry :=
  if index < r.size then r.at? ((r.tail + index) % N) else none

/-- The entry in a slot, provided that the slot is live. -/
def slot? (r : Ring N) (slot : Nat) : Option Entry :=
  if slot ∈ r.liveSlots then r.at? slot else none

/-- A ring without entries to which the given ones were appended in order. -/
def ofList (es : List Entry) : Ring N :=
  es.foldl (fun r e => (r.append e).2) empty

end Ring

end CommandLog
