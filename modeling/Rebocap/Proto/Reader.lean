import Mathlib.Tactic.Ring
import Rebocap.Lib.Wire

/-!
# `detail::Reader`

The cursor of the handwritten codec: a range `[p, end)` of the input and a sticky `ok` flag.
A read that fails clears `ok` and returns zero. It does not stop the caller, the loops test
`done()`.

The functions come first, then their specification in terms of the bytes that the reader
`Sees`: `varint_of_isVarint` and its fellows say what a read does on well-formed bytes,
`varint_ok` and its fellows that it fails on all others. `Loop.run_of_items` and
`Loop.items_of_ok` say the same of a loop over reads.
-/

namespace Rebocap.Proto

open Lib Lib.Wire

/-- `struct Reader`. The pointers are indices into `data`, `fin` is the source's `end`. -/
structure Reader where
  data : Bytes
  p : Nat
  fin : Nat
  ok : Bool := true

namespace Reader

def done (r : Reader) : Bool := decide (r.fin ≤ r.p) || !r.ok

/-- `*p` -/
def byte (r : Reader) : Nat := (r.data.getD r.p 0).toNat

def advance (r : Reader) (n : Nat) : Reader := { r with p := r.p + n }

def fail (r : Reader) : Reader := { r with ok := false }

theorem advance_advance (r : Reader) (m n : Nat) :
    (r.advance m).advance n = r.advance (m + n) := by
  simp [advance, Nat.add_assoc]

/-- The loop of `varint`, entered with `shift` and the bits `v` read so far. -/
def varintFrom (r : Reader) (shift v : Nat) : Nat × Reader :=
  if shift < 64 ∧ r.p < r.fin then
    let b := r.byte
    let v := v ||| ((b &&& 0x7f) <<< shift) % 2 ^ 64
    if b &&& 0x80 = 0 then (v, r.advance 1) else varintFrom (r.advance 1) (shift + 7) v
  else (0, r.fail)
termination_by 64 - shift

def varint (r : Reader) : Nat × Reader := r.varintFrom 0 0

/-- `fixed<T>` for a type of `n` bytes. -/
def fixed (n : Nat) (r : Reader) : BitVec (8 * n) × Reader :=
  if r.fin - r.p < n then (0, r.fail)
  else (BitVec.ofNat (8 * n) (leValue ((r.data.drop r.p).take n)), r.advance n)

/-- Returns the sub-reader and the reader behind it. The sub-reader of a failed read is empty,
and its own `ok` is set. -/
def sub (r : Reader) : Reader × Reader :=
  let (n, r) := r.varint
  if !r.ok || decide (r.fin - r.p < n) then ({ data := r.data, p := r.p, fin := r.p }, r.fail)
  else ({ data := r.data, p := r.p, fin := r.p + n }, r.advance n)

/-- The bytes `[p, end)`. -/
def slice (r : Reader) : Bytes := (r.data.drop r.p).take (r.fin - r.p)

def skip (r : Reader) (wire : Nat) : Reader :=
  match wire with
  | 0 => r.varint.2
  | 1 => (r.fixed 8).2
  | 2 => r.sub.2
  | 5 => (r.fixed 4).2
  | _ => r.fail

/-! ## What every operation does to a reader -/

/-- `r'` is `r` after some reads: it moved forward inside the same range. -/
structure Advances (r r' : Reader) : Prop where
  data_eq : r'.data = r.data
  fin_eq : r'.fin = r.fin
  le : r.p ≤ r'.p
  le_fin : r.p ≤ r.fin → r'.p ≤ r.fin
  ok : r'.ok = true → r.ok = true

theorem Advances.trans {a b c : Reader} (h : Advances a b) (h' : Advances b c) :
    Advances a c where
  data_eq := h'.data_eq.trans h.data_eq
  fin_eq := h'.fin_eq.trans h.fin_eq
  le := Nat.le_trans h.le h'.le
  le_fin := fun hp => by
    have := h'.le_fin (by rw [h.fin_eq]; exact h.le_fin hp)
    rwa [h.fin_eq] at this
  ok := fun hok => h.ok (h'.ok hok)

theorem advances_fail (r : Reader) : Advances r r.fail :=
  ⟨rfl, rfl, Nat.le_refl _, id, by simp [fail]⟩

theorem advances_advance {r : Reader} {n : Nat} (h : n ≤ r.fin - r.p) :
    Advances r (r.advance n) where
  data_eq := rfl
  fin_eq := rfl
  le := Nat.le_add_right _ _
  le_fin := fun hp => by show r.p + n ≤ r.fin; omega
  ok := id

theorem advances_varintFrom (r : Reader) (shift v : Nat) :
    Advances r (r.varintFrom shift v).2 := by
  fun_induction varintFrom r shift v with
  | case1 r shift v h => exact advances_advance (by omega)
  | case2 r shift v h b v' hb ih => exact (advances_advance (by omega)).trans ih
  | case3 r => exact advances_fail r

theorem advances_varint (r : Reader) : Advances r r.varint.2 := advances_varintFrom r 0 0

theorem advances_fixed (n : Nat) (r : Reader) : Advances r (r.fixed n).2 := by
  unfold fixed
  split
  · exact advances_fail r
  · exact advances_advance (by omega)

theorem advances_sub (r : Reader) : Advances r r.sub.2 := by
  unfold sub
  split
  next n r' he =>
    have hv : Advances r r' := by
      have := advances_varint r
      rwa [he] at this
    split
    · exact hv.trans (advances_fail r')
    · next h =>
      refine hv.trans (advances_advance ?_)
      simp only [Bool.or_eq_true, decide_eq_true_eq, not_or] at h
      omega

theorem advances_skip (r : Reader) (wire : Nat) : Advances r (r.skip wire) := by
  unfold skip
  split
  · exact advances_varint r
  · exact advances_fixed 8 r
  · exact advances_sub r
  · exact advances_fixed 4 r
  · exact advances_fail r

/-- A varint that is read has at least one byte. -/
theorem lt_varint {r : Reader} (h : r.varint.2.ok = true) : r.p < r.varint.2.p := by
  unfold varint at h ⊢
  rw [varintFrom] at h ⊢
  split
  next hc =>
    rw [if_pos hc] at h
    dsimp only at h ⊢
    split
    · exact Nat.lt_succ_self _
    · next hb =>
      have hle := (advances_varintFrom (r.advance 1) (0 + 7)
        (0 ||| ((r.byte &&& 0x7f) <<< 0) % 2 ^ 64)).le
      exact Nat.lt_of_lt_of_le (Nat.lt_succ_self _) hle
  next hc =>
    rw [if_neg hc] at h
    simp [fail] at h

/-! ## Termination of the loops -/

/-- What a loop over `!done()` has left. A failed read leaves nothing. -/
def remaining (r : Reader) : Nat := if r.ok then r.fin - r.p else 0

theorem remaining_pos {r : Reader} (h : r.done = false) : 0 < r.remaining := by
  simp only [done, Bool.or_eq_false_iff, decide_eq_false_iff_not, Bool.not_eq_false'] at h
  rw [remaining, if_pos h.2]
  omega

theorem Advances.remaining_le {r r' : Reader} (h : Advances r r') : r'.remaining ≤ r.remaining := by
  obtain ⟨-, hfin, hle, -, hok⟩ := h
  unfold remaining
  split
  next h' => rw [if_pos (hok h'), hfin]; omega
  next => exact Nat.zero_le _

/-- A read that moves forward or fails shortens the loop. -/
theorem Advances.remaining_lt {r r' : Reader} (h : Advances r r') (hd : r.done = false)
    (hp : r'.ok = true → r.p < r'.p) : r'.remaining < r.remaining := by
  have hpos := remaining_pos hd
  obtain ⟨-, hfin, hle, -, hok⟩ := h
  unfold remaining at hpos ⊢
  split
  next h' =>
    have := hp h'
    rw [if_pos (hok h')] at hpos ⊢
    omega
  next => exact hpos

theorem remaining_varint_lt {r : Reader} (hd : r.done = false) :
    r.varint.2.remaining < r.remaining :=
  (advances_varint r).remaining_lt hd lt_varint

theorem remaining_fixed_lt {n : Nat} {r : Reader} (hn : 0 < n) (hd : r.done = false) :
    (r.fixed n).2.remaining < r.remaining := by
  refine (advances_fixed n r).remaining_lt hd ?_
  unfold fixed
  split
  · simp [fail]
  · intro _
    show r.p < r.p + n
    omega

/-! ## Reading what the reader sees -/

/-- `r` has not failed, and the bytes `bs` are what is left of its range. -/
structure Sees (r : Reader) (bs : Bytes) : Prop where
  ok : r.ok = true
  split : ∃ pre post, r.data = pre ++ (bs ++ post) ∧ r.p = pre.length ∧
    r.fin = pre.length + bs.length

theorem sees_data (data : Bytes) : Sees { data := data, p := 0, fin := data.length } data :=
  ⟨rfl, [], [], by simp, rfl, by simp⟩

theorem Sees.length {r : Reader} {bs : Bytes} (h : Sees r bs) : r.fin - r.p = bs.length := by
  obtain ⟨-, pre, post, -, hp, hfin⟩ := h
  omega

theorem Sees.advance {r : Reader} {a rest : Bytes} (h : Sees r (a ++ rest)) :
    Sees (r.advance a.length) rest := by
  obtain ⟨hok, pre, post, hd, hp, hfin⟩ := h
  refine ⟨hok, pre ++ a, post, ?_, ?_, ?_⟩
  · show r.data = _
    rw [hd]; simp
  · show r.p + a.length = _
    rw [hp, List.length_append]
  · show r.fin = _
    rw [hfin, List.length_append, List.length_append]; omega

theorem Sees.byte {r : Reader} {b : UInt8} {rest : Bytes} (h : Sees r (b :: rest)) :
    r.byte = b.toNat := by
  obtain ⟨-, pre, post, hd, hp, -⟩ := h
  rw [Reader.byte, hd, hp]
  simp

theorem Sees.take {r : Reader} {a rest : Bytes} (h : Sees r (a ++ rest)) :
    (r.data.drop r.p).take a.length = a := by
  obtain ⟨-, pre, post, hd, hp, -⟩ := h
  rw [hd, hp]
  simp

theorem Sees.slice {r : Reader} {bs : Bytes} (h : Sees r bs) : r.slice = bs := by
  have : Sees r (bs ++ []) := by simpa using h
  rw [Reader.slice, h.length, this.take]

theorem Sees.done {r : Reader} {bs : Bytes} (h : Sees r bs) : r.done = bs.isEmpty := by
  have hlen := h.length
  rw [Reader.done, h.ok]
  cases bs with
  | nil => simp at hlen ⊢; omega
  | cons b bs => simp at hlen ⊢; omega

/-! ### Varints -/

theorem and_0x7f (b : Nat) : b &&& 0x7f = b % 128 := Nat.and_two_pow_sub_one_eq_mod b 7

theorem and_0x80 (b : UInt8) : b.toNat &&& 0x80 = 0 ↔ b.toNat < 128 := by
  have hall : ∀ n < 256, n &&& 0x80 = 0 ↔ n < 128 := by decide +kernel
  exact hall b.toNat b.toNat_lt

/-- The bits of the next group do not overlap the ones read so far. -/
theorem or_shiftLeft {v s : Nat} (x : Nat) (hv : v < 2 ^ s) (hs : s ≤ 64) :
    v ||| (x <<< s) % 2 ^ 64 = (v + 2 ^ s * x) % 2 ^ 64 := by
  have h64 : 2 ^ 64 = 2 ^ s * 2 ^ (64 - s) := by rw [← Nat.pow_add]; congr 1; omega
  have hmod : (v + 2 ^ s * x) % 2 ^ s = v := by
    rw [Nat.add_mul_mod_self_left, Nat.mod_eq_of_lt hv]
  have hdiv : (v + 2 ^ s * x) / 2 ^ s = x := by
    rw [Nat.add_mul_div_left _ _ (Nat.two_pow_pos s), Nat.div_eq_of_lt hv, Nat.zero_add]
  rw [Nat.shiftLeft_eq, Nat.mul_comm x, h64, Nat.mul_mod_mul_left, Nat.or_comm,
    ← Nat.two_pow_add_eq_or_of_lt hv, Nat.mod_mul, hmod, hdiv, Nat.add_comm]

/-- Reading `a`, with `70 - 7 * k` bits already read. -/
theorem varintFrom_of_varintUpTo : ∀ {k : Nat} {a rest : Bytes} {r : Reader} {shift v : Nat},
    Sees r (a ++ rest) → varintUpTo k a = true → shift + 7 * k = 70 → v < 2 ^ shift →
    r.varintFrom shift v = ((v + 2 ^ shift * groups a) % 2 ^ 64, r.advance a.length)
  | 0, _, _, _, _, _, _, ha, _, _ => by simp [varintUpTo] at ha
  | _ + 1, [], _, _, _, _, _, ha, _, _ => by simp [varintUpTo] at ha
  | k + 1, b :: a, rest, r, shift, v, h, ha, hs, hv => by
    have hlt : r.p < r.fin := by have := h.length; simp at this; omega
    have hor : v ||| (b.toNat % 128) <<< shift % 2 ^ 64
        = (v + 2 ^ shift * (b.toNat % 128)) % 2 ^ 64 := or_shiftLeft _ hv (by omega)
    rw [varintFrom, if_pos ⟨by omega, hlt⟩]
    simp only [h.byte, and_0x7f, and_0x80, hor]
    by_cases hb : b.toNat < 128
    · rw [varintUpTo_cons_last hb] at ha
      subst ha
      simp [hb, groups]
    · rw [varintUpTo_cons_more hb] at ha
      have hk : k ≠ 0 := by intro hk; subst hk; simp [varintUpTo] at ha
      have hadv : Sees (r.advance 1) (a ++ rest) := by
        have : Sees r ([b] ++ (a ++ rest)) := by simpa using h
        exact this.advance
      have hfit : v + 2 ^ shift * (b.toNat % 128) < 2 ^ (shift + 7) := by
        have : b.toNat % 128 + 1 ≤ 128 := Nat.mod_lt _ (by decide)
        calc v + 2 ^ shift * (b.toNat % 128)
            < 2 ^ shift + 2 ^ shift * (b.toNat % 128) := by omega
          _ = 2 ^ shift * (b.toNat % 128 + 1) := by rw [Nat.mul_add_one, Nat.add_comm]
          _ ≤ 2 ^ shift * 128 := Nat.mul_le_mul_left _ this
          _ = 2 ^ (shift + 7) := by rw [Nat.pow_add]
      have h64 : v + 2 ^ shift * (b.toNat % 128) < 2 ^ 64 :=
        Nat.lt_of_lt_of_le hfit (Nat.pow_le_pow_right (by decide) (by omega))
      rw [if_neg hb, Nat.mod_eq_of_lt h64,
        varintFrom_of_varintUpTo hadv ha (by omega) hfit]
      refine Prod.ext ?_ ?_
      · show _ % 2 ^ 64 = _ % 2 ^ 64
        rw [groups, Nat.pow_add]
        congr 1
        ring
      · show (r.advance 1).advance a.length = r.advance (a.length + 1)
        rw [advance_advance, Nat.add_comm]

/-- **A varint is read to its value.** -/
theorem varint_of_isVarint {r : Reader} {a rest : Bytes} (h : Sees r (a ++ rest))
    (ha : IsVarint a) : r.varint = (varintValue a, r.advance a.length) := by
  rw [varint, varintFrom_of_varintUpTo h ha (by decide) (by decide)]
  simp [varintValue]

theorem varintFrom_ok : ∀ {k : Nat} {bs : Bytes} {r : Reader} {shift v : Nat},
    Sees r bs → shift + 7 * k = 70 → (r.varintFrom shift v).2.ok = true →
    ∃ a rest, bs = a ++ rest ∧ varintUpTo k a = true
  | k, bs, r, shift, v, h, hs, hok => by
    rw [varintFrom] at hok
    split at hok
    next hc =>
      cases k with
      | zero => omega
      | succ k =>
        cases bs with
        | nil => have := h.length; simp at this; omega
        | cons b bs =>
          simp only [h.byte, and_0x80] at hok
          by_cases hb : b.toNat < 128
          · exact ⟨[b], bs, rfl, by simp [varintUpTo, hb]⟩
          · rw [if_neg hb] at hok
            have hadv : Sees (r.advance 1) bs := Sees.advance (a := [b]) h
            obtain ⟨a, rest, rfl, ha⟩ := varintFrom_ok (k := k) hadv (by omega) hok
            exact ⟨b :: a, rest, rfl, (varintUpTo_cons_more hb).mpr ha⟩
    next => simp [fail] at hok

/-- **What is read as a varint is one.** -/
theorem varint_ok {r : Reader} {bs : Bytes} (h : Sees r bs) (hok : r.varint.2.ok = true) :
    ∃ a rest, bs = a ++ rest ∧ IsVarint a := varintFrom_ok h (by decide) hok

/-! ### The other payloads -/

theorem fixed_of_length {n : Nat} {r : Reader} {a rest : Bytes} (h : Sees r (a ++ rest))
    (ha : a.length = n) : r.fixed n = (BitVec.ofNat (8 * n) (leValue a), r.advance n) := by
  have hlen := h.length
  rw [List.length_append] at hlen
  have htake := h.take
  rw [ha] at htake
  rw [fixed, if_neg (by omega), htake]

theorem fixed_ok {n : Nat} {r : Reader} {bs : Bytes} (h : Sees r bs)
    (hok : (r.fixed n).2.ok = true) : ∃ a rest, bs = a ++ rest ∧ a.length = n := by
  have hlen := h.length
  unfold fixed at hok
  split at hok
  next => simp [fail] at hok
  next hn =>
    refine ⟨bs.take n, bs.drop n, (List.take_append_drop n bs).symm, ?_⟩
    rw [List.length_take]
    omega

/-- **A length-delimited payload is read to a reader of its body.** -/
theorem sub_of_bytes {r : Reader} {len body rest : Bytes} (h : Sees r (len ++ (body ++ rest)))
    (hlen : IsVarint len) (hn : varintValue len = body.length) :
    r.sub = ({ data := r.data, p := r.p + len.length, fin := r.p + len.length + body.length },
      r.advance (len.length + body.length)) := by
  have hbody : Sees (r.advance len.length) (body ++ rest) := h.advance
  have hroom := hbody.length
  rw [List.length_append] at hroom
  have hfits : ¬(!(r.advance len.length).ok || decide ((r.advance len.length).fin
      - (r.advance len.length).p < body.length)) = true := by
    rw [hbody.ok]
    simp only [Bool.not_true, Bool.false_or, decide_eq_true_eq]
    omega
  rw [sub, varint_of_isVarint h hlen, hn]
  simp only [hfits, advance_advance]
  rfl

theorem sees_sub_body {r : Reader} {len body rest : Bytes}
    (h : Sees r (len ++ (body ++ rest))) :
    Sees { data := r.data, p := r.p + len.length, fin := r.p + len.length + body.length }
      body := by
  obtain ⟨-, pre, post, hd, hp, -⟩ := h
  refine ⟨rfl, pre ++ len, rest ++ post, ?_, ?_, ?_⟩
  · rw [hd]; simp
  · rw [hp, List.length_append]
  · show r.p + len.length + body.length = _
    rw [hp, List.length_append]

theorem sub_ok {r : Reader} {bs : Bytes} (h : Sees r bs) (hok : r.sub.2.ok = true) :
    ∃ len body rest, bs = len ++ (body ++ rest) ∧ IsVarint len ∧
      varintValue len = body.length := by
  unfold sub at hok
  split at hok
  next n r' he =>
    split at hok
    next => simp [fail] at hok
    next hc =>
      simp only [Bool.or_eq_true, Bool.not_eq_true', decide_eq_true_eq, not_or,
        Bool.not_eq_false] at hc
      have hv : r.varint.2.ok = true := by rw [he]; exact hc.1
      obtain ⟨len, rest, rfl, hlen⟩ := varint_ok h hv
      rw [varint_of_isVarint h hlen] at he
      cases he
      have hroom : (r.advance len.length).fin - (r.advance len.length).p = rest.length :=
        h.advance.length
      refine ⟨len, rest.take (varintValue len), rest.drop (varintValue len), ?_, hlen, ?_⟩
      · rw [List.take_append_drop]
      · rw [List.length_take]
        omega

/-- **`skip` goes over a payload of the given wire type.** -/
theorem skip_of_value {r : Reader} {v : Value} {rest : Bytes} (h : Sees r (v.encode ++ rest)) :
    r.skip v.wireType = r.advance v.encode.length := by
  cases v with
  | varint a ha => exact congrArg Prod.snd (varint_of_isVarint h ha)
  | fixed64 a ha =>
    show (r.fixed 8).2 = r.advance a.length
    rw [fixed_of_length h ha, ha]
  | bytes len body hlen hn =>
    have h' : Sees r (len ++ (body ++ rest)) := by simpa [Value.encode] using h
    show r.sub.2 = r.advance (len ++ body).length
    rw [sub_of_bytes h' hlen hn, List.length_append]
  | fixed32 a ha =>
    show (r.fixed 4).2 = r.advance a.length
    rw [fixed_of_length h ha, ha]

/-- **What is skipped is a payload of the given wire type.** -/
theorem skip_ok {r : Reader} {bs : Bytes} {wire : Nat} (h : Sees r bs)
    (hok : (r.skip wire).ok = true) :
    ∃ (v : Value) (rest : Bytes), bs = v.encode ++ rest ∧ v.wireType = wire := by
  unfold skip at hok
  split at hok
  · obtain ⟨a, rest, hbs, ha⟩ := varint_ok h hok
    exact ⟨.varint a ha, rest, hbs, rfl⟩
  · obtain ⟨a, rest, hbs, ha⟩ := fixed_ok h hok
    exact ⟨.fixed64 a ha, rest, hbs, rfl⟩
  · obtain ⟨len, body, rest, hbs, hlen, hn⟩ := sub_ok h hok
    exact ⟨.bytes len body hlen hn, rest, by simpa [Value.encode] using hbs, rfl⟩
  · obtain ⟨a, rest, hbs, ha⟩ := fixed_ok h hok
    exact ⟨.fixed32 a ha, rest, hbs, rfl⟩
  · simp [fail] at hok

end Reader

/-! ## Loops -/

/-- A loop over `!done()`, with the items that its body consumes, one in each pass. -/
structure Loop (σ α : Type) where
  body : Reader → σ → Reader × σ
  run : Reader → σ → Reader × σ
  encode : α → Bytes
  put : σ → α → σ
  run_eq : ∀ r s, run r s = if r.done then (r, s) else run (body r s).1 (body r s).2
  encode_ne_nil : ∀ a, encode a ≠ []
  body_of_item : ∀ {r : Reader} {rest : Bytes} (a : α) (s : σ), r.Sees (encode a ++ rest) →
    body r s = (r.advance (encode a).length, put s a)
  item_of_ok : ∀ {r : Reader} {bs : Bytes} {s : σ}, r.Sees bs → (body r s).1.ok = true →
    ∃ a rest, bs = encode a ++ rest

namespace Loop

variable {σ α : Type} (l : Loop σ α)

/-- **A loop consumes items, one after the other.** -/
theorem run_of_items : ∀ (as : List α) {r : Reader} (s : σ), r.Sees (as.flatMap l.encode) →
    (l.run r s).1.ok = true ∧ (l.run r s).2 = as.foldl l.put s := by
  intro as
  induction as with
  | nil =>
    intro r s h
    rw [l.run_eq, if_pos (by rw [h.done]; rfl)]
    exact ⟨h.ok, rfl⟩
  | cons a as ih =>
    intro r s h
    rw [List.flatMap_cons] at h
    have hd : ¬r.done = true := by
      rw [h.done]
      simp [l.encode_ne_nil a]
    rw [l.run_eq, if_neg hd, l.body_of_item a s h]
    exact ih (l.put s a) h.advance

/-- A reader that has failed stays so. -/
theorem run_of_not_ok {r : Reader} (s : σ) (h : r.ok = false) : l.run r s = (r, s) := by
  rw [l.run_eq, if_pos (by simp [Reader.done, h])]

/-- **What a loop accepts is a list of items.** -/
theorem items_of_ok {r : Reader} {bs : Bytes} {s : σ} (h : r.Sees bs)
    (hok : (l.run r s).1.ok = true) : ∃ as : List α, bs = as.flatMap l.encode := by
  induction hl : bs.length using Nat.strongRecOn generalizing r bs s with
  | _ n ih =>
    cases hb : bs with
    | nil => exact ⟨[], rfl⟩
    | cons b bs' =>
      have hd : ¬r.done = true := by rw [h.done, hb]; simp
      rw [l.run_eq, if_neg hd] at hok
      have hbody : (l.body r s).1.ok = true := by
        cases hf : (l.body r s).1.ok with
        | true => rfl
        | false => rw [l.run_of_not_ok _ hf, hf] at hok; exact hok
      obtain ⟨a, rest, hbs⟩ := l.item_of_ok h hbody
      rw [hbs] at h
      rw [l.body_of_item a s h] at hok
      have hlt : rest.length < n := by
        have := List.length_pos_iff.mpr (l.encode_ne_nil a)
        rw [← hl, hbs, List.length_append]
        omega
      obtain ⟨as, has⟩ := ih rest.length hlt h.advance hok rfl
      exact ⟨a :: as, by rw [← hb, hbs, has, List.flatMap_cons]⟩

end Loop

end Rebocap.Proto
