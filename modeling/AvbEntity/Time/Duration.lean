namespace AvbEntity

structure Duration where
  nanos : Nat
  nanos_lt : nanos < UInt64.size * 1000000000
deriving DecidableEq

namespace Duration

theorem ext {a b : Duration} (h : a.nanos = b.nanos) : a = b := by
  cases a; cases b; cases h; rfl

def zero : Duration := ⟨0, by decide⟩

instance : Inhabited Duration := ⟨zero⟩

def max : Duration := ⟨UInt64.size * 1000000000 - 1, by decide⟩

instance : LE Duration := ⟨fun a b => a.nanos ≤ b.nanos⟩

instance (a b : Duration) : Decidable (a ≤ b) := inferInstanceAs (Decidable (a.nanos ≤ b.nanos))

def ofNanos? (n : Nat) : Option Duration :=
  if h : n < UInt64.size * 1000000000 then some ⟨n, h⟩ else none

def ofParts? (seconds : UInt64) (nanos : Nat) : Option Duration :=
  if nanos < 1000000000 then ofNanos? (seconds.toNat * 1000000000 + nanos) else none

def ofMillis (ms : UInt64) : Duration :=
  ⟨ms.toNat * 1000000, by have := ms.toNat_lt_size; omega⟩

def seconds (d : Duration) : Nat := d.nanos / 1000000000

def subsecondNanos (d : Duration) : Nat := d.nanos % 1000000000

def millis (d : Duration) : Nat := d.nanos / 1000000

def times? (d : Duration) (k : Nat) : Option Duration := ofNanos? (d.nanos * k)

def min (a b : Duration) : Duration := if a ≤ b then a else b

def since (later earlier : Duration) : Duration :=
  ⟨later.nanos - earlier.nanos, Nat.lt_of_le_of_lt (Nat.sub_le ..) later.nanos_lt⟩

theorem nanos_min (a b : Duration) : (a.min b).nanos = Nat.min a.nanos b.nanos := by
  unfold min
  split
  · rename_i h
    exact (Nat.min_eq_left h).symm
  · rename_i h
    exact (Nat.min_eq_right (Nat.le_of_lt (Nat.lt_of_not_le h))).symm

end Duration

end AvbEntity
