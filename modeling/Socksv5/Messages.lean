import Mathlib.Data.List.Basic

/-!
# The messages of a client

The formats of RFC 1928 and RFC 1929 that the comments of `socksv5_stm.h`
draw, as encodings.  Nothing here is taken from a parser; the parsers are
proved to stop at the end of such a message and nowhere else.
-/

namespace Socksv5

/-- The length of a field, as the byte that announces it. -/
def lengthByte (xs : List UInt8) : UInt8 := UInt8.ofNat xs.length

/-- A field of one to 255 bytes. -/
def FieldLength (xs : List UInt8) : Prop := 1 ≤ xs.length ∧ xs.length ≤ 255

/-- `VER NMETHODS METHODS` -/
def greetingMessage (methods : List UInt8) : List UInt8 :=
  5 :: lengthByte methods :: methods

/-- `VER ULEN UNAME PLEN PASSWD` -/
def credentialsMessage (user password : List UInt8) : List UInt8 :=
  1 :: lengthByte user :: user ++ lengthByte password :: password

/-- Where a request asks to be connected to. -/
inductive Destination
  | ipv4 (addr : List UInt8)
  | ipv6 (addr : List UInt8)
  | fqdn (name : List UInt8)

/-- The address has the size its type prescribes. -/
def Destination.WellFormed : Destination → Prop
  | .ipv4 addr => addr.length = 4
  | .ipv6 addr => addr.length = 16
  | .fqdn name => FieldLength name

/-- `ATYP` -/
def Destination.atyp : Destination → UInt8
  | .ipv4 _ => 1
  | .ipv6 _ => 4
  | .fqdn _ => 3

/-- The bytes of the address or of the name. -/
def Destination.bytes : Destination → List UInt8
  | .ipv4 addr => addr
  | .ipv6 addr => addr
  | .fqdn name => name

/-- `ATYP DST.ADDR` -/
def Destination.encode : Destination → List UInt8
  | .ipv4 addr => 1 :: addr
  | .ipv6 addr => 4 :: addr
  | .fqdn name => 3 :: lengthByte name :: name

/-- `VER CMD RSV ATYP DST.ADDR DST.PORT`, with the command `CONNECT`. -/
def requestMessage (d : Destination) (hi lo : UInt8) : List UInt8 :=
  5 :: 1 :: 0 :: d.encode ++ [hi, lo]

theorem lengthByte_eq_of_toNat {n : UInt8} {xs : List UInt8}
    (h : xs.length = n.toNat) : lengthByte xs = n := by
  rw [lengthByte, h, UInt8.ofNat_toNat]

theorem fieldLength_of_toNat {n : UInt8} {xs : List UInt8} (hn : n ≠ 0)
    (h : xs.length = n.toNat) : FieldLength xs := by
  have hpos : n.toNat ≠ 0 := by
    intro h0
    apply hn
    rw [← UInt8.ofNat_toNat (x := n), h0]
    rfl
  have hlt := n.toNat_lt
  constructor <;> omega

/-! ## Where a message ends -/

theorem lengthByte_inj {xs ys : List UInt8} (hx : FieldLength xs)
    (hy : FieldLength ys) (h : lengthByte xs = lengthByte ys) :
    xs.length = ys.length := by
  have hnat := congrArg UInt8.toNat h
  rw [lengthByte, lengthByte, UInt8.toNat_ofNat', UInt8.toNat_ofNat'] at hnat
  have := hx.2
  have := hy.2
  omega

/-- A field that announces its length ends where it says. -/
theorem field_append_inj {xs ys a b : List UInt8} (hx : FieldLength xs)
    (hy : FieldLength ys)
    (h : lengthByte xs :: xs ++ a = lengthByte ys :: ys ++ b) :
    xs = ys ∧ a = b := by
  rw [List.cons_append, List.cons_append, List.cons.injEq] at h
  exact List.append_inj h.2 (lengthByte_inj hx hy h.1)

theorem greetingMessage_append_inj {ms ms' a b : List UInt8}
    (hms : FieldLength ms) (hms' : FieldLength ms')
    (h : greetingMessage ms ++ a = greetingMessage ms' ++ b) :
    ms = ms' ∧ a = b :=
  field_append_inj hms hms' (List.cons.inj h).2

theorem credentialsMessage_append_inj {u u' p p' a b : List UInt8}
    (hu : FieldLength u) (hu' : FieldLength u') (hp : FieldLength p)
    (hp' : FieldLength p')
    (h : credentialsMessage u p ++ a = credentialsMessage u' p' ++ b) :
    a = b := by
  have hfield : lengthByte u :: u ++ (lengthByte p :: p ++ a) =
      lengthByte u' :: u' ++ (lengthByte p' :: p' ++ b) := by
    simpa [credentialsMessage] using h
  exact (field_append_inj hp hp' (field_append_inj hu hu' hfield).2).2

theorem Destination.encode_append_inj {d d' : Destination} {a b : List UInt8}
    (hd : d.WellFormed) (hd' : d'.WellFormed)
    (h : d.encode ++ a = d'.encode ++ b) : a = b := by
  cases d <;> cases d' <;>
    simp only [Destination.encode, List.cons_append, List.cons.injEq] at h
  case ipv4.ipv4 => exact (List.append_inj h.2 (hd.trans hd'.symm)).2
  case ipv6.ipv6 => exact (List.append_inj h.2 (hd.trans hd'.symm)).2
  case fqdn.fqdn name name' =>
      exact (List.append_inj h.2.2 (lengthByte_inj hd hd' h.2.1)).2
  all_goals exact absurd h.1 (by decide)

theorem requestMessage_append_inj {d d' : Destination} {hi lo hi' lo' : UInt8}
    {a b : List UInt8} (hd : d.WellFormed) (hd' : d'.WellFormed)
    (h : requestMessage d hi lo ++ a = requestMessage d' hi' lo' ++ b) :
    a = b := by
  have hencode : d.encode ++ (hi :: lo :: a) = d'.encode ++ (hi' :: lo' :: b) := by
    simpa [requestMessage] using h
  have htail := Destination.encode_append_inj hd hd' hencode
  exact (List.cons.inj (List.cons.inj htail).2).2

/-- A request determines what it asks for. -/
theorem requestMessage_inj {d d' : Destination} {hi lo hi' lo' : UInt8}
    (h : requestMessage d hi lo = requestMessage d' hi' lo') :
    d = d' ∧ hi = hi' ∧ lo = lo' := by
  have happend : d.encode ++ [hi, lo] = d'.encode ++ [hi', lo'] := by
    simpa [requestMessage] using h
  obtain ⟨hencode, hport⟩ := List.append_inj' happend rfl
  have hports : hi = hi' ∧ lo = lo' := by simpa using hport
  refine ⟨?_, hports⟩
  cases d <;> cases d' <;>
    simp only [Destination.encode, List.cons.injEq] at hencode
  case ipv4.ipv4 => exact congrArg Destination.ipv4 hencode.2
  case ipv6.ipv6 => exact congrArg Destination.ipv6 hencode.2
  case fqdn.fqdn => exact congrArg Destination.fqdn hencode.2.2
  all_goals exact absurd hencode.1 (by decide)

end Socksv5
