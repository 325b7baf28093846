/-!
# Ids of plans

A plan is known by 16 random bytes in hexadecimal groups, six of whose bits are fixed to
mark them as random.
-/

namespace Uplift.PlanId

/-- The bytes with the six fixed bits. -/
def marked (bytes : List UInt8) : List UInt8 :=
  bytes.mapIdx fun i b =>
    if i = 6 then (b &&& 0x0f) ||| 0x40 else if i = 8 then (b &&& 0x3f) ||| 0x80 else b

def hex (b : UInt8) : List Char :=
  (Nat.toDigits 16 (b.toNat / 16)) ++ (Nat.toDigits 16 (b.toNat % 16))

/-- Groups of four, two, two, two and six bytes. -/
def ofBytes (bytes : List UInt8) : String :=
  let bytes := marked bytes
  let group (start count : Nat) : String :=
    String.ofList (((bytes.drop start).take count).flatMap hex)
  "-".intercalate [group 0 4, group 4 2, group 6 2, group 8 2, group 10 6]

end Uplift.PlanId
