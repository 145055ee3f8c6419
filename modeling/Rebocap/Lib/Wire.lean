import Rebocap.Lib.LittleEndian

/-!
# The protocol buffers wire format

The grammar of a serialised message below any schema: a message is a sequence of fields, a
field is a tag varint followed by the payload that its wire type prescribes.
Wire types 0 (varint), 1 (64 bits), 2 (length-delimited) and 5 (32 bits) are covered. The group
types 3 and 4 are obsolete and have no payload of their own.

* `varint_unique` / `Value.encode_unique` / `encodeAll_injective` — the grammar is unambiguous,
  at each level
-/

namespace Lib.Wire

/-! ## Varints -/

/-- At most `k` bytes, all but the last with the continuation bit. -/
def varintUpTo : Nat → Bytes → Bool
  | 0, _ => false
  | _ + 1, [] => false
  | k + 1, b :: bs => if b.toNat < 128 then bs.isEmpty else varintUpTo k bs

/-- A varint has at most ten bytes. -/
abbrev IsVarint (bs : Bytes) : Prop := varintUpTo 10 bs = true

/-- The base-128 number of a varint's bytes, the lowest group first. -/
def groups : Bytes → Nat
  | [] => 0
  | b :: bs => b.toNat % 128 + 128 * groups bs

/-- The value of a varint is a 64-bit number. The tenth byte can exceed it and is cut off. -/
def varintValue (bs : Bytes) : Nat := groups bs % 2 ^ 64

theorem varintUpTo_cons_last {k : Nat} {b : UInt8} {bs : Bytes} (hb : b.toNat < 128) :
    varintUpTo (k + 1) (b :: bs) = true ↔ bs = [] := by
  simp [varintUpTo, hb]

theorem varintUpTo_cons_more {k : Nat} {b : UInt8} {bs : Bytes} (hb : ¬b.toNat < 128) :
    varintUpTo (k + 1) (b :: bs) = true ↔ varintUpTo k bs = true := by
  simp [varintUpTo, hb]

theorem varintUpTo_ne_nil : ∀ {k : Nat} {bs : Bytes}, varintUpTo k bs = true → bs ≠ []
  | 0, _, h => by simp [varintUpTo] at h
  | _ + 1, [], h => by simp [varintUpTo] at h
  | _ + 1, _ :: _, _ => by simp

/-- Two varints at the start of one byte string are the same. -/
theorem varintUpTo_unique : ∀ {k : Nat} {a b x y : Bytes},
    varintUpTo k a = true → varintUpTo k b = true → a ++ x = b ++ y → a = b ∧ x = y
  | 0, _, _, _, _, ha, _, _ => by simp [varintUpTo] at ha
  | _ + 1, [], _, _, _, ha, _, _ => by simp [varintUpTo] at ha
  | _ + 1, _ :: _, [], _, _, _, hb, _ => by simp [varintUpTo] at hb
  | k + 1, c :: a, d :: b, x, y, ha, hb, h => by
    rw [List.cons_append, List.cons_append, List.cons.injEq] at h
    obtain ⟨rfl, htail⟩ := h
    by_cases hc : c.toNat < 128
    · rw [varintUpTo_cons_last hc] at ha hb
      subst ha hb
      exact ⟨rfl, htail⟩
    · rw [varintUpTo_cons_more hc] at ha hb
      obtain ⟨rfl, rfl⟩ := varintUpTo_unique ha hb htail
      exact ⟨rfl, rfl⟩

theorem varint_unique {a b x y : Bytes} (ha : IsVarint a) (hb : IsVarint b)
    (h : a ++ x = b ++ y) : a = b ∧ x = y := varintUpTo_unique ha hb h

/-! ## Payloads -/

scoped instance neZero_four : NeZero 4 := ⟨by decide⟩

scoped instance neZero_eight : NeZero 8 := ⟨by decide⟩

/-- The numbers of a packed list of `n`-byte scalars. Bytes of an incomplete last one are left
out. -/
def packed (n : Nat) [NeZero n] (body : Bytes) : List (BitVec (8 * n)) :=
  if _h : body.length < n then []
  else BitVec.ofNat (8 * n) (leValue (body.take n)) :: packed n (body.drop n)
termination_by body.length
decreasing_by
  have hn : 0 < n := Nat.pos_of_neZero n
  rw [List.length_drop]
  omega

@[simp] theorem packed_nil (n : Nat) [NeZero n] : packed n [] = [] := by
  rw [packed, dif_pos (by simpa using Nat.pos_of_neZero n)]

/-- The first number of a packed list. -/
theorem packed_append {n : Nat} [NeZero n] {a : Bytes} (rest : Bytes) (ha : a.length = n) :
    packed n (a ++ rest) = BitVec.ofNat (8 * n) (leValue a) :: packed n rest := by
  rw [packed, dif_neg (by rw [List.length_append]; omega), List.take_left' ha, List.drop_left' ha]

/-- A payload, with what makes it one. -/
inductive Value where
  | varint (bs : Bytes) (isVarint : IsVarint bs)
  | fixed64 (bs : Bytes) (length_eq : bs.length = 8)
  | bytes (len body : Bytes) (isVarint : IsVarint len) (length_eq : varintValue len = body.length)
  | fixed32 (bs : Bytes) (length_eq : bs.length = 4)

namespace Value

def wireType : Value → Nat
  | .varint .. => 0
  | .fixed64 .. => 1
  | .bytes .. => 2
  | .fixed32 .. => 5

def encode : Value → Bytes
  | .varint bs _ => bs
  | .fixed64 bs _ => bs
  | .bytes len body _ _ => len ++ body
  | .fixed32 bs _ => bs

/-- The number in a scalar payload. -/
def number : Value → Nat
  | .varint bs _ => varintValue bs
  | .fixed64 bs _ => leValue bs
  | .bytes .. => 0
  | .fixed32 bs _ => leValue bs

/-- The body of a length-delimited payload. -/
def body : Value → Bytes
  | .bytes _ body _ _ => body
  | _ => []

/-- The numbers of a `repeated` scalar field of `n` bytes, packed or not. -/
def scalars (n : Nat) [NeZero n] (v : Value) : List (BitVec (8 * n)) :=
  if v.wireType = 2 then packed n v.body else [BitVec.ofNat (8 * n) v.number]

theorem eq_varint {v : Value} (h : v.wireType = 0) :
    IsVarint v.encode ∧ v.number = varintValue v.encode := by
  cases v with
  | varint bs hbs => exact ⟨hbs, rfl⟩
  | fixed64 | bytes | fixed32 => cases h

theorem eq_fixed64 {v : Value} (h : v.wireType = 1) :
    v.encode.length = 8 ∧ v.number = leValue v.encode := by
  cases v with
  | fixed64 bs hbs => exact ⟨hbs, rfl⟩
  | varint | bytes | fixed32 => cases h

theorem eq_bytes {v : Value} (h : v.wireType = 2) :
    ∃ len, IsVarint len ∧ varintValue len = v.body.length ∧ v.encode = len ++ v.body := by
  cases v with
  | bytes len body hlen hn => exact ⟨len, hlen, hn, rfl⟩
  | varint | fixed64 | fixed32 => cases h

theorem eq_fixed32 {v : Value} (h : v.wireType = 5) :
    v.encode.length = 4 ∧ v.number = leValue v.encode := by
  cases v with
  | fixed32 bs hbs => exact ⟨hbs, rfl⟩
  | varint | fixed64 | bytes => cases h

/-- **A payload is determined by its wire type and the bytes it starts.** -/
theorem encode_unique {v w : Value} {x y : Bytes} (hw : v.wireType = w.wireType)
    (h : v.encode ++ x = w.encode ++ y) : v = w ∧ x = y := by
  cases v with
  | varint a ha =>
    cases w with
    | varint b hb =>
      obtain ⟨rfl, rfl⟩ := varint_unique ha hb h
      exact ⟨rfl, rfl⟩
    | fixed64 | bytes | fixed32 => cases hw
  | fixed64 a ha =>
    cases w with
    | fixed64 b hb =>
      obtain ⟨rfl, rfl⟩ := List.append_inj h (ha.trans hb.symm)
      exact ⟨rfl, rfl⟩
    | varint | bytes | fixed32 => cases hw
  | bytes len body hlen hn =>
    cases w with
    | bytes len' body' hlen' hn' =>
      simp only [encode, List.append_assoc] at h
      obtain ⟨rfl, htail⟩ := varint_unique hlen hlen' h
      obtain ⟨rfl, rfl⟩ := List.append_inj htail (hn.symm.trans hn')
      exact ⟨rfl, rfl⟩
    | varint | fixed64 | fixed32 => cases hw
  | fixed32 a ha =>
    cases w with
    | fixed32 b hb =>
      obtain ⟨rfl, rfl⟩ := List.append_inj h (ha.trans hb.symm)
      exact ⟨rfl, rfl⟩
    | varint | fixed64 | bytes => cases hw

end Value

/-! ## Fields -/

/-- A field, with its tag varint and a payload of the tag's wire type. -/
structure Field where
  tag : Bytes
  value : Value
  isVarint : IsVarint tag
  wireType_eq : varintValue tag % 8 = value.wireType

namespace Field

def encode (f : Field) : Bytes := f.tag ++ f.value.encode

/-- The field number. -/
def number (f : Field) : Nat := varintValue f.tag / 8

theorem encode_ne_nil (f : Field) : f.encode ≠ [] := by
  have := varintUpTo_ne_nil f.isVarint
  simp [encode, this]

/-- **A field is determined by the bytes it starts.** -/
theorem encode_unique {f g : Field} {x y : Bytes} (h : f.encode ++ x = g.encode ++ y) :
    f = g ∧ x = y := by
  obtain ⟨ftag, fvalue, hf, hfw⟩ := f
  obtain ⟨gtag, gvalue, hg, hgw⟩ := g
  simp only [encode, List.append_assoc] at h
  obtain ⟨rfl, htail⟩ := varint_unique hf hg h
  obtain ⟨rfl, rfl⟩ := Value.encode_unique (hfw.symm.trans hgw) htail
  exact ⟨rfl, rfl⟩

end Field

/-- The bytes of a sequence of fields. -/
def encodeAll (fs : List Field) : Bytes := fs.flatMap Field.encode

@[simp] theorem encodeAll_nil : encodeAll [] = [] := rfl

@[simp] theorem encodeAll_cons (f : Field) (fs : List Field) :
    encodeAll (f :: fs) = f.encode ++ encodeAll fs := rfl

/-- **A byte string is at most one sequence of fields.** -/
theorem encodeAll_injective : ∀ {fs gs : List Field}, encodeAll fs = encodeAll gs → fs = gs
  | [], [], _ => rfl
  | [], g :: gs, h => by
    have := g.encode_ne_nil
    simp [this] at h
  | f :: fs, [], h => by
    have := f.encode_ne_nil
    simp [this] at h
  | f :: fs, g :: gs, h => by
    obtain ⟨rfl, htail⟩ := Field.encode_unique h
    rw [encodeAll_injective htail]

end Lib.Wire
