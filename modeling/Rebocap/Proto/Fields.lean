import Rebocap.Proto.Decode

/-!
# What `decode` does with one field

`decodePayload` on a reader that sees a payload of the grammar of `Lib/Wire.lean`.
`Msg.put` is its effect on the message as a function of the payload's value. The branches are
those of `decodePayload`, in the same order.

A `position` submessage has one exception: a `q` or `pos` field of a wire type that neither list
form has is read as one scalar of the list, whatever its wire type says (`strayWidth`).

* `decodePayload_of_value` — a readable payload is consumed, and `Msg.put` is its effect
* `decodePayload_of_stray` — a stray one consumes the width of the list's scalar
* `decodePayload_ok` — anything else fails
-/

namespace Rebocap.Proto

open Lib Lib.Wire

/-! ## Lists of scalars -/

/-- A scalar of `n` bytes. -/
abbrev Scalar (n : Nat) := { a : Bytes // a.length = n }

def encodeScalars {n : Nat} (as : List (Scalar n)) : Bytes := as.flatMap Subtype.val

theorem dvd_length_scalars {n : Nat} : ∀ (as : List (Scalar n)), n ∣ (encodeScalars as).length := by
  intro as
  induction as with
  | nil => exact Nat.dvd_zero n
  | cons a as ih =>
    obtain ⟨a, ha⟩ := a
    show n ∣ (a ++ encodeScalars as).length
    rw [List.length_append, ha, Nat.dvd_add_right (Nat.dvd_refl n)]
    exact ih

theorem exists_scalars_of_dvd {n : Nat} [NeZero n] {body : Bytes} (h : n ∣ body.length) :
    ∃ as : List (Scalar n), body = encodeScalars as := by
  fun_induction packed n body with
  | case1 body hlt =>
    have h0 : body.length = 0 := Nat.eq_zero_of_dvd_of_lt h hlt
    exact ⟨[], List.length_eq_zero_iff.mp h0⟩
  | case2 body hle ih =>
    have htake : (body.take n).length = n := by rw [List.length_take]; omega
    have hdrop : n ∣ (body.drop n).length := by
      rw [List.length_drop]
      exact Nat.dvd_sub h (Nat.dvd_refl n)
    obtain ⟨as, has⟩ := ih hdrop
    refine ⟨⟨body.take n, htake⟩ :: as, ?_⟩
    show body = body.take n ++ encodeScalars as
    rw [← has, List.take_append_drop]

/-- The loop over a packed list. -/
def packedLoop (n : Nat) [NeZero n] : Loop (List (BitVec (8 * n))) (Scalar n) where
  body r out := ((r.fixed n).2, out ++ [(r.fixed n).1])
  run := repeatedLoop n
  encode := Subtype.val
  put out a := out ++ [BitVec.ofNat (8 * n) (leValue a.val)]
  run_eq r out := by
    rw [repeatedLoop]
    rfl
  encode_ne_nil a := by
    rw [← List.length_pos_iff, a.property]
    exact Nat.pos_of_neZero n
  body_of_item a out h := by rw [Reader.fixed_of_length h a.property, a.property]
  item_of_ok h hok := by
    obtain ⟨a, rest, hbs, ha⟩ := Reader.fixed_ok h hok
    exact ⟨⟨a, ha⟩, rest, hbs⟩

theorem foldl_packedLoop_put {n : Nat} [NeZero n] : ∀ (as : List (Scalar n))
    (out : List (BitVec (8 * n))),
    as.foldl (packedLoop n).put out = out ++ packed n (encodeScalars as) := by
  intro as
  induction as with
  | nil =>
    intro out
    simp [encodeScalars]
  | cons a as ih =>
    obtain ⟨a, ha⟩ := a
    intro out
    rw [List.foldl_cons, ih]
    show (out ++ [_]) ++ _ = out ++ packed n (a ++ encodeScalars as)
    rw [packed_append _ ha, List.append_assoc, List.singleton_append]

/-- The packed loop reads a body of whole scalars. -/
theorem repeatedLoop_of_dvd {n : Nat} [NeZero n] {s : Reader} {body : Bytes}
    (out : List (BitVec (8 * n))) (h : s.Sees body) (hdvd : n ∣ body.length) :
    (repeatedLoop n s out).1.ok = true ∧ (repeatedLoop n s out).2 = out ++ packed n body := by
  obtain ⟨as, rfl⟩ := exists_scalars_of_dvd hdvd
  rw [← foldl_packedLoop_put]
  exact (packedLoop n).run_of_items as out h

/-- The packed loop fails on any other body. -/
theorem repeatedLoop_ok {n : Nat} [NeZero n] {s : Reader} {body : Bytes}
    (out : List (BitVec (8 * n))) (h : s.Sees body)
    (hok : (repeatedLoop n s out).1.ok = true) : n ∣ body.length := by
  obtain ⟨as, rfl⟩ := (packedLoop n).items_of_ok h hok
  exact dvd_length_scalars as

/-- `repeated` reads a packed list, or one scalar in the form of its wire type. -/
theorem repeated_of_value {n : Nat} [NeZero n] {r : Reader} {v : Value} {rest : Bytes}
    (out : List (BitVec (8 * n))) (h : r.Sees (v.encode ++ rest))
    (hv : (v.wireType = 2 ∧ n ∣ v.body.length) ∨
      (v.wireType ≠ 2 ∧ v.encode.length = n ∧ v.number = leValue v.encode)) :
    repeated n r v.wireType out = (r.advance v.encode.length, out ++ v.scalars n) := by
  rcases hv with ⟨h2, hdvd⟩ | ⟨h2, hlen, hnum⟩
  · obtain ⟨len, hlen, hn, he⟩ := Value.eq_bytes h2
    have h' : r.Sees (len ++ (v.body ++ rest)) := by rw [← List.append_assoc, ← he]; exact h
    have hbody := Reader.sees_sub_body h'
    obtain ⟨hok, hout⟩ := repeatedLoop_of_dvd out hbody hdvd
    have hrok : r.ok = true := h.ok
    rw [repeated, if_pos h2, Reader.sub_of_bytes h' hlen hn]
    simp only [hok, hout, Value.scalars, h2, if_true, Bool.and_true]
    rw [he, List.length_append]
  · rw [repeated, if_neg h2, Reader.fixed_of_length h hlen, Value.scalars, if_neg h2, hnum, hlen]

theorem repeated_ok {n : Nat} [NeZero n] {r : Reader} {bs : Bytes} {w : Nat}
    (out : List (BitVec (8 * n))) (h : r.Sees bs) (hok : (repeated n r w out).1.ok = true) :
    (w = 2 ∧ ∃ (v : Value) (rest : Bytes), bs = v.encode ++ rest ∧ v.wireType = 2 ∧
      n ∣ v.body.length) ∨
    (w ≠ 2 ∧ ∃ a rest, bs = a ++ rest ∧ a.length = n) := by
  by_cases hw : w = 2
  · refine Or.inl ⟨hw, ?_⟩
    rw [repeated, if_pos hw] at hok
    simp only [Bool.and_eq_true] at hok
    obtain ⟨len, body, rest, rfl, hlen, hn⟩ := Reader.sub_ok h hok.1
    have hloop := hok.2
    rw [Reader.sub_of_bytes h hlen hn] at hloop
    have hdvd := repeatedLoop_ok out (Reader.sees_sub_body h) hloop
    exact ⟨.bytes len body hlen hn, rest, by simp [Value.encode], rfl, hdvd⟩
  · refine Or.inr ⟨hw, ?_⟩
    rw [repeated, if_neg hw] at hok
    exact Reader.fixed_ok h hok

/-! ## One field -/

/-- What a field does to the message. -/
def Msg.put (field : MsgKind) (f : Int) (v : Value) (m : Msg) : Msg :=
  if f = 1 ∧ v.wireType = 0 ∧ field.toInt ≤ MsgKind.trackerStatus.toInt then
    { m with trackerId := Int32.ofNat v.number }
  else if field = .position ∧ f = 10 then { m with q := m.q ++ v.scalars 8 }
  else if field = .position ∧ f = 11 then { m with pos := m.pos ++ v.scalars 4 }
  else if field = .trackerAdded ∧ f = 3 ∧ v.wireType = 0 then
    { m with role := Int32.ofNat v.number }
  else if field = .trackerAdded ∧ f = 4 ∧ v.wireType = 2 then { m with name := v.body }
  else if field = .trackerStatus ∧ f = 2 ∧ v.wireType = 0 then
    { m with status := Int32.ofNat v.number }
  else if field = .trackerStatus ∧ f = 3 ∧ v.wireType = 5 then
    { m with battery := BitVec.ofNat 32 v.number }
  else if field = .wipSetting ∧ v.wireType = 0 ∧ 1 ≤ f ∧ f ≤ 5 then
    setWipSetting f (v.number != 0) m
  else if field = .wipInfo ∧ f = 2 ∧ v.wireType = 5 then
    { m with wipX := BitVec.ofNat 32 v.number }
  else if field = .wipInfo ∧ f = 3 ∧ v.wireType = 5 then
    { m with wipY := BitVec.ofNat 32 v.number }
  else if field = .wipInfo ∧ f = 4 ∧ v.wireType = 0 then
    { m with wipStatus := Int32.ofNat v.number }
  else m

/-- A payload that the list field `f` of a `position` submessage reads: packed scalars, or one
scalar of the list's own wire type. -/
def ListPayload (n w : Nat) (v : Value) : Prop :=
  (v.wireType = 2 ∧ n ∣ v.body.length) ∨ v.wireType = w

/-- A payload that is consumed as its wire type says. -/
def Readable (field : MsgKind) (f : Int) (v : Value) : Prop :=
  field = .position → (f = 10 → ListPayload 8 1 v) ∧ (f = 11 → ListPayload 4 5 v)

/-- The width of the scalar that a list field of a `position` submessage reads when its wire type
is neither that of packed scalars nor the scalar's own. -/
def strayWidth (field : MsgKind) (f : Int) (w : Nat) : Option Nat :=
  if field = .position ∧ f = 10 ∧ w ≠ 2 ∧ w ≠ 1 then some 8
  else if field = .position ∧ f = 11 ∧ w ≠ 2 ∧ w ≠ 5 then some 4
  else none

theorem read_varint {r : Reader} {v : Value} {rest : Bytes} (h : r.Sees (v.encode ++ rest))
    (hw : v.wireType = 0) : r.varint = (v.number, r.advance v.encode.length) := by
  obtain ⟨hv, hn⟩ := Value.eq_varint hw
  rw [Reader.varint_of_isVarint h hv, hn]

theorem read_fixed32 {r : Reader} {v : Value} {rest : Bytes} (h : r.Sees (v.encode ++ rest))
    (hw : v.wireType = 5) :
    r.fixed 4 = (BitVec.ofNat 32 v.number, r.advance v.encode.length) := by
  obtain ⟨hlen, hn⟩ := Value.eq_fixed32 hw
  rw [Reader.fixed_of_length h hlen, hlen, hn]

theorem read_sub {r : Reader} {v : Value} {rest : Bytes} (h : r.Sees (v.encode ++ rest))
    (hw : v.wireType = 2) :
    r.sub.1.Sees v.body ∧ r.sub.2 = r.advance v.encode.length := by
  obtain ⟨len, hlen, hn, he⟩ := Value.eq_bytes hw
  have h' : r.Sees (len ++ (v.body ++ rest)) := by rw [← List.append_assoc, ← he]; exact h
  rw [Reader.sub_of_bytes h' hlen hn]
  refine ⟨Reader.sees_sub_body h', ?_⟩
  rw [he, List.length_append]

theorem ite_pair {α β : Type} {c : Prop} [Decidable c] {x y : α × β} {a : α} {b b' : β}
    (h : c → x = (a, b)) (h' : ¬c → y = (a, b')) :
    (if c then x else y) = (a, if c then b else b') := by
  by_cases hc : c
  · rw [if_pos hc, if_pos hc]; exact h hc
  · rw [if_neg hc, if_neg hc]; exact h' hc

/-- **A readable payload is consumed, and `Msg.put` is its effect.** -/
theorem decodePayload_of_value {field : MsgKind} {f : Int} {v : Value} {r : Reader}
    {rest : Bytes} (m : Msg) (h : r.Sees (v.encode ++ rest)) (hr : Readable field f v) :
    decodePayload field f v.wireType r m = (r.advance v.encode.length, m.put field f v) := by
  unfold decodePayload Msg.put
  refine ite_pair (fun hc => by rw [read_varint h hc.2.1]) fun _ => ?_
  refine ite_pair (fun hc => ?_) fun _ => ?_
  · have hv : (v.wireType = 2 ∧ 8 ∣ v.body.length) ∨
        (v.wireType ≠ 2 ∧ v.encode.length = 8 ∧ v.number = leValue v.encode) := by
      rcases (hr hc.1).1 hc.2 with h2 | h1
      · exact Or.inl h2
      · exact Or.inr ⟨by omega, Value.eq_fixed64 h1⟩
    rw [repeated_of_value m.q h hv]
  refine ite_pair (fun hc => ?_) fun _ => ?_
  · have hv : (v.wireType = 2 ∧ 4 ∣ v.body.length) ∨
        (v.wireType ≠ 2 ∧ v.encode.length = 4 ∧ v.number = leValue v.encode) := by
      rcases (hr hc.1).2 hc.2 with h2 | h5
      · exact Or.inl h2
      · exact Or.inr ⟨by omega, Value.eq_fixed32 h5⟩
    rw [repeated_of_value m.pos h hv]
  refine ite_pair (fun hc => by rw [read_varint h hc.2.2]) fun _ => ?_
  refine ite_pair (fun hc => ?_) fun _ => ?_
  · obtain ⟨hs, hr'⟩ := read_sub h hc.2.2
    rw [hr', hs.slice]
  refine ite_pair (fun hc => by rw [read_varint h hc.2.2]) fun _ => ?_
  refine ite_pair (fun hc => by rw [read_fixed32 h hc.2.2]) fun _ => ?_
  refine ite_pair (fun hc => by rw [read_varint h hc.2.1]) fun _ => ?_
  refine ite_pair (fun hc => by rw [read_fixed32 h hc.2.2]) fun _ => ?_
  refine ite_pair (fun hc => by rw [read_fixed32 h hc.2.2]) fun _ => ?_
  refine ite_pair (fun hc => by rw [read_varint h hc.2.2]) fun _ => ?_
  rw [Reader.skip_of_value h]

/-! ### The list fields of a `position` submessage -/

theorem decodePayload_q (w : Nat) (r : Reader) (m : Msg) :
    decodePayload .position 10 w r m
      = ((repeated 8 r w m.q).1, { m with q := (repeated 8 r w m.q).2 }) := by
  rw [decodePayload, if_neg (by omega), if_pos ⟨rfl, rfl⟩]

theorem decodePayload_pos (w : Nat) (r : Reader) (m : Msg) :
    decodePayload .position 11 w r m
      = ((repeated 4 r w m.pos).1, { m with pos := (repeated 4 r w m.pos).2 }) := by
  rw [decodePayload, if_neg (by omega), if_neg (by omega), if_pos ⟨rfl, rfl⟩]

theorem strayWidth_eq_some {field : MsgKind} {f : Int} {w n : Nat} :
    strayWidth field f w = some n ↔
      field = .position ∧ w ≠ 2 ∧ ((f = 10 ∧ w ≠ 1 ∧ n = 8) ∨ (f = 11 ∧ w ≠ 5 ∧ n = 4)) := by
  unfold strayWidth
  constructor
  · intro h
    split at h
    next hc => cases h; exact ⟨hc.1, hc.2.2.1, Or.inl ⟨hc.2.1, hc.2.2.2, rfl⟩⟩
    next =>
      split at h
      next hc => cases h; exact ⟨hc.1, hc.2.2.1, Or.inr ⟨hc.2.1, hc.2.2.2, rfl⟩⟩
      next => cases h
  · rintro ⟨hp, h2, ⟨hf, h1, rfl⟩ | ⟨hf, h5, rfl⟩⟩
    · rw [if_pos ⟨hp, hf, h2, h1⟩]
    · rw [if_neg (by omega), if_pos ⟨hp, hf, h2, h5⟩]

/-- A stray field takes the width of the list's scalar, not the extent of its wire type. -/
theorem decodePayload_of_stray {field : MsgKind} {f : Int} {w n : Nat} {r : Reader}
    {a rest : Bytes} (m : Msg) (hs : strayWidth field f w = some n) (h : r.Sees (a ++ rest))
    (ha : a.length = n) : (decodePayload field f w r m).1 = r.advance n := by
  obtain ⟨rfl, h2, ⟨rfl, -, rfl⟩ | ⟨rfl, -, rfl⟩⟩ := strayWidth_eq_some.mp hs
  · rw [decodePayload_q, repeated, if_neg h2, Reader.fixed_of_length h ha]
  · rw [decodePayload_pos, repeated, if_neg h2, Reader.fixed_of_length h ha]

/-- A stray field adds a number to its list. -/
theorem decodePayload_stray_ne {field : MsgKind} {f : Int} {w n : Nat} {r : Reader} (m : Msg)
    (hs : strayWidth field f w = some n) : (decodePayload field f w r m).2 ≠ m := by
  obtain ⟨rfl, h2, ⟨rfl, -, -⟩ | ⟨rfl, -, -⟩⟩ := strayWidth_eq_some.mp hs
  · rw [decodePayload_q, repeated, if_neg h2]
    intro he
    have hq := congrArg (fun x => x.q.length) he
    simp at hq
  · rw [decodePayload_pos, repeated, if_neg h2]
    intro he
    have hpos := congrArg (fun x => x.pos.length) he
    simp at hpos

/-! ### What is accepted -/

theorem fst_ite {α β : Type} {c : Prop} [Decidable c] {x y : α × β} {a : α}
    (h : c → x.1 = a) (h' : ¬c → y.1 = a) : (if c then x else y).1 = a := by
  by_cases hc : c
  · rw [if_pos hc]; exact h hc
  · rw [if_neg hc]; exact h' hc

/-- Apart from the list fields, a field takes the extent of its wire type. -/
theorem decodePayload_fst {field : MsgKind} {f : Int} (w : Nat) (r : Reader) (m : Msg)
    (hl : ¬(field = .position ∧ (f = 10 ∨ f = 11))) :
    (decodePayload field f w r m).1 = r.skip w := by
  unfold decodePayload
  refine fst_ite (fun hc => by rw [hc.2.1]; rfl) fun _ => ?_
  refine fst_ite (fun hc => absurd ⟨hc.1, Or.inl hc.2⟩ hl) fun _ => ?_
  refine fst_ite (fun hc => absurd ⟨hc.1, Or.inr hc.2⟩ hl) fun _ => ?_
  refine fst_ite (fun hc => by rw [hc.2.2]; rfl) fun _ => ?_
  refine fst_ite (fun hc => by rw [hc.2.2]; rfl) fun _ => ?_
  refine fst_ite (fun hc => by rw [hc.2.2]; rfl) fun _ => ?_
  refine fst_ite (fun hc => by rw [hc.2.2]; rfl) fun _ => ?_
  refine fst_ite (fun hc => by rw [hc.2.1]; rfl) fun _ => ?_
  refine fst_ite (fun hc => by rw [hc.2.2]; rfl) fun _ => ?_
  refine fst_ite (fun hc => by rw [hc.2.2]; rfl) fun _ => ?_
  refine fst_ite (fun hc => by rw [hc.2.2]; rfl) fun _ => ?_
  rfl

/-- What a list field accepts. `u` is the wire type of a single scalar. -/
theorem repeated_accepts {n u w : Nat} [NeZero n] {r : Reader} {bs : Bytes}
    (out : List (BitVec (8 * n))) (h : r.Sees bs) (hok : (repeated n r w out).1.ok = true)
    (hu : ∀ a : Bytes, a.length = n → ∃ v : Value, v.wireType = u ∧ v.encode = a) :
    (∃ (v : Value) (rest : Bytes), bs = v.encode ++ rest ∧ v.wireType = w ∧
      ((v.wireType = 2 ∧ n ∣ v.body.length) ∨ v.wireType = u)) ∨
    (w ≠ 2 ∧ w ≠ u ∧ ∃ a rest, bs = a ++ rest ∧ a.length = n) := by
  rcases repeated_ok out h hok with ⟨rfl, v, rest, hbs, h2, hdvd⟩ | ⟨h2, a, rest, hbs, ha⟩
  · exact Or.inl ⟨v, rest, hbs, h2, Or.inl ⟨h2, hdvd⟩⟩
  · by_cases hw : w = u
    · obtain ⟨v, hv, he⟩ := hu a ha
      exact Or.inl ⟨v, rest, by rw [he]; exact hbs, hv.trans hw.symm, Or.inr hv⟩
    · exact Or.inr ⟨h2, hw, a, rest, hbs, ha⟩

/-- **Whatever is accepted is a readable payload or a stray one.** -/
theorem decodePayload_ok {field : MsgKind} {f : Int} {w : Nat} {r : Reader} {bs : Bytes}
    {m : Msg} (h : r.Sees bs) (hok : (decodePayload field f w r m).1.ok = true) :
    (∃ (v : Value) (rest : Bytes), bs = v.encode ++ rest ∧ v.wireType = w ∧
      Readable field f v) ∨
    (∃ n a rest, strayWidth field f w = some n ∧ bs = a ++ rest ∧ a.length = n) := by
  by_cases hl : field = .position ∧ (f = 10 ∨ f = 11)
  · obtain ⟨rfl, rfl | rfl⟩ := hl
    · rw [decodePayload_q] at hok
      have hu : ∀ a : Bytes, a.length = 8 → ∃ v : Value, v.wireType = 1 ∧ v.encode = a :=
        fun a ha => ⟨.fixed64 a ha, rfl, rfl⟩
      rcases repeated_accepts m.q h hok hu with ⟨v, rest, hbs, hw, hv⟩ | ⟨h2, h1, a, rest, hbs, ha⟩
      · exact Or.inl ⟨v, rest, hbs, hw, fun _ => ⟨fun _ => hv, fun he => absurd he (by decide)⟩⟩
      · exact Or.inr ⟨8, a, rest, strayWidth_eq_some.mpr ⟨rfl, h2, Or.inl ⟨rfl, h1, rfl⟩⟩, hbs, ha⟩
    · rw [decodePayload_pos] at hok
      have hu : ∀ a : Bytes, a.length = 4 → ∃ v : Value, v.wireType = 5 ∧ v.encode = a :=
        fun a ha => ⟨.fixed32 a ha, rfl, rfl⟩
      rcases repeated_accepts m.pos h hok hu with
        ⟨v, rest, hbs, hw, hv⟩ | ⟨h2, h5, a, rest, hbs, ha⟩
      · exact Or.inl ⟨v, rest, hbs, hw, fun _ => ⟨fun he => absurd he (by decide), fun _ => hv⟩⟩
      · exact Or.inr ⟨4, a, rest, strayWidth_eq_some.mpr ⟨rfl, h2, Or.inr ⟨rfl, h5, rfl⟩⟩, hbs, ha⟩
  · rw [decodePayload_fst w r m hl] at hok
    obtain ⟨v, rest, hbs, hw⟩ := Reader.skip_ok h hok
    refine Or.inl ⟨v, rest, hbs, hw, fun hp => ⟨fun hf => ?_, fun hf => ?_⟩⟩
    · exact absurd ⟨hp, Or.inl hf⟩ hl
    · exact absurd ⟨hp, Or.inr hf⟩ hl

end Rebocap.Proto
