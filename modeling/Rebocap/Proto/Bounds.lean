import Mathlib.Logic.Function.Iterate
import Rebocap.Proto.Grammar

/-!
# The bounds of `decode`

What `decode` does with its memory, as a list of events: the places at which its readers stand,
the bytes that are read, and what is added to the message.

* `decode_bounded` — no reader leaves its range or the input, also not after a failed read, what
  is added to the message is no longer than the input, and every loop ends
-/

namespace Rebocap.Proto

open Lib Lib.Wire

/-! ## Events -/

/-- The range from `start` up to `stop`. -/
structure Span where
  start : Nat
  stop : Nat

inductive Event where
  /-- A reader over the range `own`, which was cut out of `parent`, stands at `p`. -/
  | reader (parent own : Span) (p : Nat)
  /-- A byte is read. -/
  | read (i : Nat)
  /-- A number joins `q` or `pos`. -/
  | pushed
  /-- A name of `n` bytes is assigned. -/
  | named (n : Nat)

/-- Where a reader comes from. -/
structure Place where
  parent : Span
  start : Nat

namespace Place

def stands (c : Place) (r : Reader) : Event := .reader c.parent ⟨c.start, r.fin⟩ r.p

/-- The place of the sub-reader that `r.sub` returns. -/
def sub (c : Place) (r : Reader) : Place := ⟨⟨c.start, r.fin⟩, r.sub.1.p⟩

end Place

/-- The bytes `[p, p + n)` are read. -/
def readsFrom (p n : Nat) : List Event := (List.range' p n).map .read

def varintFromEvents (c : Place) (r : Reader) (shift : Nat) : List Event :=
  if shift < 64 ∧ r.p < r.fin then
    .read r.p :: c.stands (r.advance 1) ::
      (if r.byte &&& 0x80 = 0 then [] else varintFromEvents c (r.advance 1) (shift + 7))
  else [c.stands r.fail]
termination_by 64 - shift

def varintEvents (c : Place) (r : Reader) : List Event := varintFromEvents c r 0

def fixedEvents (c : Place) (n : Nat) (r : Reader) : List Event :=
  if r.fin - r.p < n then [c.stands r.fail] else readsFrom r.p n ++ [c.stands (r.advance n)]

def subEvents (c : Place) (r : Reader) : List Event :=
  varintEvents c r ++ [(c.sub r).stands r.sub.1, c.stands r.sub.2]

def skipEvents (c : Place) (r : Reader) (wire : Nat) : List Event :=
  match wire with
  | 0 => varintEvents c r
  | 1 => fixedEvents c 8 r
  | 2 => subEvents c r
  | 5 => fixedEvents c 4 r
  | _ => [c.stands r.fail]

def repeatedLoopEvents (c : Place) (n : Nat) [NeZero n] (s : Reader) : List Event :=
  if _h : s.done then [] else fixedEvents c n s ++ .pushed :: repeatedLoopEvents c n (s.fixed n).2
termination_by s.remaining
decreasing_by exact Reader.remaining_fixed_lt (Nat.pos_of_neZero n) (by simpa using _h)

def repeatedEvents (c : Place) (n : Nat) [NeZero n] (r : Reader) (wire : Nat) : List Event :=
  if wire = 2 then subEvents c r ++ repeatedLoopEvents (c.sub r) n r.sub.1
  else fixedEvents c n r ++ [.pushed]

/-- `m.name.assign(s.p, s.end)` behind `sub`. -/
def nameEvents (c : Place) (r : Reader) : List Event :=
  subEvents c r ++ readsFrom r.sub.1.p (r.sub.1.fin - r.sub.1.p) ++
    [.named (r.sub.1.fin - r.sub.1.p)]

def payloadEvents (c : Place) (field : MsgKind) (f : Int) (w : Nat) (r : Reader) : List Event :=
  if field = .position ∧ f = 10 then repeatedEvents c 8 r w
  else if field = .position ∧ f = 11 then repeatedEvents c 4 r w
  else if field = .trackerAdded ∧ f = 4 ∧ w = 2 then nameEvents c r
  -- the branches of the other fields test the wire type and read as `skip` does
  else skipEvents c r w

def fieldEvents (c : Place) (field : MsgKind) (r : Reader) : List Event :=
  varintEvents c r ++ payloadEvents c field (tagField r.varint.1) (tagWire r.varint.1) r.varint.2

def bodyEvents (c : Place) (field : MsgKind) (r : Reader) (m : Msg) : List Event :=
  if _h : r.done then []
  else fieldEvents c field r ++
    bodyEvents c field (decodeField field r m).1 (decodeField field r m).2
termination_by r.remaining
decreasing_by
  exact Nat.lt_of_le_of_lt (advances_decodeField field r m).remaining_le
    (Reader.remaining_varint_lt (by simpa using _h))

def topFieldEvents (c : Place) (top : Reader) : List Event :=
  varintEvents c top ++
    match tagMember top.varint.1 with
    | none => skipEvents c top.varint.2 (tagWire top.varint.1)
    | some field => subEvents c top.varint.2 ++
        bodyEvents (c.sub top.varint.2) field top.varint.2.sub.1 { kind := field }

def topEvents (c : Place) (top : Reader) (m : Msg) : List Event :=
  if _h : top.done then []
  else topFieldEvents c top ++ topEvents c (decodeTopField top m).1 (decodeTopField top m).2
termination_by top.remaining
decreasing_by
  exact Nat.lt_of_le_of_lt (advances_decodeTopField top m).remaining_le
    (Reader.remaining_varint_lt (by simpa using _h))

/-- The reader over the whole input. -/
def topReader (data : Bytes) : Reader := { data := data, p := 0, fin := data.length }

def topPlace (data : Bytes) : Place := ⟨⟨0, data.length⟩, 0⟩

def decodeEvents (data : Bytes) (m : Msg) : List Event :=
  (topPlace data).stands (topReader data) :: topEvents (topPlace data) (topReader data) m

/-! ## Every reader stays in its range -/

/-- A reader stands inside its range, the range inside that of its parent and that inside the
input of `len` bytes. Only bytes of the input are read. -/
def Event.Within (len : Nat) : Event → Prop
  | .reader parent own p =>
    own.start ≤ p ∧ p ≤ own.stop ∧ parent.start ≤ own.start ∧ own.stop ≤ parent.stop ∧
      parent.stop ≤ len
  | .read i => i < len
  | .pushed | .named _ => True

def AllWithin (len : Nat) (es : List Event) : Prop := ∀ e ∈ es, e.Within len

@[simp] theorem allWithin_nil {len : Nat} : AllWithin len [] := by simp [AllWithin]

@[simp] theorem allWithin_cons {len : Nat} {e : Event} {es : List Event} :
    AllWithin len (e :: es) ↔ e.Within len ∧ AllWithin len es := List.forall_mem_cons

@[simp] theorem allWithin_append {len : Nat} {a b : List Event} :
    AllWithin len (a ++ b) ↔ AllWithin len a ∧ AllWithin len b := List.forall_mem_append

/-- The reader `r` of the place `c` stands inside its range. -/
structure Placed (len : Nat) (c : Place) (r : Reader) : Prop where
  start_le : c.start ≤ r.p
  le_fin : r.p ≤ r.fin
  parent_le : c.parent.start ≤ c.start
  le_parent : r.fin ≤ c.parent.stop
  parent_le_len : c.parent.stop ≤ len

variable {len : Nat} {c : Place} {r r' : Reader}

theorem Placed.within (h : Placed len c r) : (c.stands r).Within len :=
  ⟨h.start_le, h.le_fin, h.parent_le, h.le_parent, h.parent_le_len⟩

/-- What a reader does keeps it in its range. -/
theorem Placed.advances (h : Placed len c r) (ha : Reader.Advances r r') : Placed len c r' where
  start_le := Nat.le_trans h.start_le ha.le
  le_fin := by rw [ha.fin_eq]; exact ha.le_fin h.le_fin
  parent_le := h.parent_le
  le_parent := by rw [ha.fin_eq]; exact h.le_parent
  parent_le_len := h.parent_le_len

/-- The sub-reader lies between the reader before and the reader behind it. -/
theorem sub_between (r : Reader) :
    r.p ≤ r.sub.1.p ∧ r.sub.1.p ≤ r.sub.1.fin ∧ r.sub.1.fin ≤ r.sub.2.p := by
  have hv := (Reader.advances_varint r).le
  unfold Reader.sub
  split
  next n r' he =>
    rw [he] at hv
    split
    · exact ⟨hv, Nat.le_refl _, Nat.le_refl _⟩
    · exact ⟨hv, Nat.le_add_right _ _, Nat.le_refl _⟩

theorem Placed.sub (h : Placed len c r) : Placed len (c.sub r) r.sub.1 := by
  have ha := Reader.advances_sub r
  obtain ⟨hp, hle, hfin⟩ := sub_between r
  have hbehind := ha.le_fin h.le_fin
  exact {
    start_le := Nat.le_refl _
    le_fin := hle
    parent_le := Nat.le_trans h.start_le hp
    le_parent := Nat.le_trans hfin hbehind
    parent_le_len := Nat.le_trans h.le_parent h.parent_le_len }

theorem readsFrom_within {p n : Nat} (h : p + n ≤ len) : AllWithin len (readsFrom p n) := by
  intro e he
  obtain ⟨i, hi, rfl⟩ := List.mem_map.mp he
  have := (List.mem_range'_1.mp hi).2
  exact Nat.lt_of_lt_of_le this h

theorem Placed.fin_le_len (h : Placed len c r) : r.fin ≤ len :=
  Nat.le_trans h.le_parent h.parent_le_len

theorem varintFromEvents_within (shift : Nat) (h : Placed len c r) :
    AllWithin len (varintFromEvents c r shift) := by
  fun_induction varintFromEvents c r shift with
  | case1 r shift hc ih =>
    have hnext : Placed len c (r.advance 1) := h.advances (Reader.advances_advance (by omega))
    have hread : r.p < len := Nat.lt_of_lt_of_le hc.2 h.fin_le_len
    simp only [allWithin_cons]
    refine ⟨hread, hnext.within, ?_⟩
    split
    · exact allWithin_nil
    · exact ih hnext
  | case2 r shift hc =>
    simp only [allWithin_cons, allWithin_nil, and_true]
    exact (h.advances (Reader.advances_fail r)).within

theorem varintEvents_within (h : Placed len c r) : AllWithin len (varintEvents c r) :=
  varintFromEvents_within 0 h

theorem fixedEvents_within (n : Nat) (h : Placed len c r) : AllWithin len (fixedEvents c n r) := by
  unfold fixedEvents
  split
  · simp only [allWithin_cons, allWithin_nil, and_true]
    exact (h.advances (Reader.advances_fail r)).within
  next hroom =>
    have hle := h.le_fin
    have hlen := h.fin_le_len
    simp only [allWithin_append, allWithin_cons, allWithin_nil, and_true]
    exact ⟨readsFrom_within (by omega), (h.advances (Reader.advances_advance (by omega))).within⟩

theorem subEvents_within (h : Placed len c r) : AllWithin len (subEvents c r) := by
  simp only [subEvents, allWithin_append, allWithin_cons, allWithin_nil, and_true]
  exact ⟨varintEvents_within h, h.sub.within, (h.advances (Reader.advances_sub r)).within⟩

theorem skipEvents_within (wire : Nat) (h : Placed len c r) :
    AllWithin len (skipEvents c r wire) := by
  unfold skipEvents
  split
  · exact varintEvents_within h
  · exact fixedEvents_within 8 h
  · exact subEvents_within h
  · exact fixedEvents_within 4 h
  · simp only [allWithin_cons, allWithin_nil, and_true]
    exact (h.advances (Reader.advances_fail r)).within

theorem repeatedLoopEvents_within {n : Nat} [NeZero n] (h : Placed len c r) :
    AllWithin len (repeatedLoopEvents c n r) := by
  fun_induction repeatedLoopEvents c n r with
  | case1 r hd => exact allWithin_nil
  | case2 r hd ih =>
    simp only [allWithin_append, allWithin_cons]
    exact ⟨fixedEvents_within n h, trivial, ih (h.advances (Reader.advances_fixed n r))⟩

theorem repeatedEvents_within {n : Nat} [NeZero n] (wire : Nat) (h : Placed len c r) :
    AllWithin len (repeatedEvents c n r wire) := by
  unfold repeatedEvents
  split
  · simp only [allWithin_append]
    exact ⟨subEvents_within h, repeatedLoopEvents_within h.sub⟩
  · simp only [allWithin_append, allWithin_cons, allWithin_nil, and_true]
    exact ⟨fixedEvents_within n h, trivial⟩

theorem nameEvents_within (h : Placed len c r) : AllWithin len (nameEvents c r) := by
  have hle := h.sub.le_fin
  have hlen := h.sub.fin_le_len
  simp only [nameEvents, allWithin_append, allWithin_cons, allWithin_nil, and_true]
  exact ⟨⟨subEvents_within h, readsFrom_within (by omega)⟩, trivial⟩

theorem payloadEvents_within (field : MsgKind) (f : Int) (w : Nat) (h : Placed len c r) :
    AllWithin len (payloadEvents c field f w r) := by
  unfold payloadEvents
  split
  · exact repeatedEvents_within w h
  · split
    · exact repeatedEvents_within w h
    · split
      · exact nameEvents_within h
      · exact skipEvents_within w h

theorem fieldEvents_within (field : MsgKind) (h : Placed len c r) :
    AllWithin len (fieldEvents c field r) := by
  simp only [fieldEvents, allWithin_append]
  exact ⟨varintEvents_within h,
    payloadEvents_within field _ _ (h.advances (Reader.advances_varint r))⟩

theorem advances_decodeField' (field : MsgKind) (r : Reader) (m : Msg) :
    Reader.Advances r (decodeField field r m).1 :=
  (Reader.advances_varint r).trans (advances_decodeField field r m)

theorem advances_decodeTopField' (top : Reader) (m : Msg) :
    Reader.Advances top (decodeTopField top m).1 :=
  (Reader.advances_varint top).trans (advances_decodeTopField top m)

theorem bodyEvents_within (field : MsgKind) (m : Msg) (h : Placed len c r) :
    AllWithin len (bodyEvents c field r m) := by
  fun_induction bodyEvents c field r m with
  | case1 r m hd => exact allWithin_nil
  | case2 r m hd ih =>
    simp only [allWithin_append]
    exact ⟨fieldEvents_within field h, ih (h.advances (advances_decodeField' field r m))⟩

theorem topFieldEvents_within (h : Placed len c r) : AllWithin len (topFieldEvents c r) := by
  have hnext := h.advances (Reader.advances_varint r)
  rw [topFieldEvents, allWithin_append]
  refine ⟨varintEvents_within h, ?_⟩
  split
  · exact skipEvents_within _ hnext
  · rw [allWithin_append]
    exact ⟨subEvents_within hnext, bodyEvents_within _ _ hnext.sub⟩

theorem topEvents_within (m : Msg) (h : Placed len c r) : AllWithin len (topEvents c r m) := by
  fun_induction topEvents c r m with
  | case1 r m hd => exact allWithin_nil
  | case2 r m hd ih =>
    rw [allWithin_append]
    exact ⟨topFieldEvents_within h, ih (h.advances (advances_decodeTopField' r m))⟩

theorem placed_topReader (data : Bytes) :
    Placed data.length (topPlace data) (topReader data) where
  start_le := Nat.le_refl _
  le_fin := Nat.zero_le _
  parent_le := Nat.le_refl _
  le_parent := Nat.le_refl _
  parent_le_len := Nat.le_refl _

/-! ## What is added to the message -/

/-- How much of the message an event makes. -/
def Event.size : Event → Nat
  | .reader .. | .read _ => 0
  | .pushed => 1
  | .named n => n

/-- The numbers of `q` and `pos` and the bytes of names that are produced. -/
def produced (es : List Event) : Nat := (es.map Event.size).sum

@[simp] theorem produced_nil : produced [] = 0 := rfl

@[simp] theorem produced_cons (e : Event) (es : List Event) :
    produced (e :: es) = e.size + produced es := List.sum_cons

@[simp] theorem produced_append (a b : List Event) :
    produced (a ++ b) = produced a + produced b := by
  simp [produced]

@[simp] theorem size_stands (c : Place) (r : Reader) : (c.stands r).size = 0 := rfl

@[simp] theorem produced_readsFrom (p n : Nat) : produced (readsFrom p n) = 0 := by
  simp [produced, readsFrom, Function.comp_def, Event.size]

theorem produced_varintFromEvents (c : Place) (r : Reader) (shift : Nat) :
    produced (varintFromEvents c r shift) = 0 := by
  fun_induction varintFromEvents c r shift with
  | case1 r shift hc ih =>
    simp only [produced_cons, size_stands]
    split
    · rfl
    · rw [ih]
      rfl
  | case2 r shift hc => rfl

@[simp] theorem produced_varintEvents (c : Place) (r : Reader) :
    produced (varintEvents c r) = 0 := produced_varintFromEvents c r 0

@[simp] theorem produced_fixedEvents (c : Place) (n : Nat) (r : Reader) :
    produced (fixedEvents c n r) = 0 := by
  unfold fixedEvents
  split <;> simp

@[simp] theorem produced_subEvents (c : Place) (r : Reader) : produced (subEvents c r) = 0 := by
  simp [subEvents]

@[simp] theorem produced_skipEvents (c : Place) (r : Reader) (wire : Nat) :
    produced (skipEvents c r wire) = 0 := by
  unfold skipEvents
  split <;> simp

/-- A packed list has at most one number for each byte, with the one of a failed read. -/
theorem produced_repeatedLoop {n : Nat} [NeZero n] (c : Place) (hle : r.p ≤ r.fin) :
    produced (repeatedLoopEvents c n r) + r.p ≤ r.fin := by
  have hn : 0 < n := Nat.pos_of_neZero n
  fun_induction repeatedLoopEvents c n r with
  | case1 r hd => simpa using hle
  | case2 r hd ih =>
    have hlt : r.p < r.fin := by
      simp only [Reader.done, Bool.or_eq_true, decide_eq_true_eq, not_or] at hd
      omega
    have ha := Reader.advances_fixed n r
    have ih := ih (by rw [ha.fin_eq]; exact ha.le_fin hle)
    simp only [produced_append, produced_fixedEvents, produced_cons, Event.size]
    by_cases hroom : r.fin - r.p < n
    · -- the failed read ends the loop
      have hfail : (r.fixed n).2 = r.fail := by rw [Reader.fixed, if_pos hroom]
      have hdone : (r.fixed n).2.done = true := by simp [hfail, Reader.done, Reader.fail]
      rw [repeatedLoopEvents, dif_pos hdone]
      simp only [produced_nil]
      omega
    · have hnext : (r.fixed n).2 = r.advance n := by rw [Reader.fixed, if_neg hroom]
      rw [hnext] at ih ⊢
      have hp : (r.advance n).p = r.p + n := rfl
      have hfin : (r.advance n).fin = r.fin := rfl
      omega

/-- A list field adds no more than the bytes of its payload and one. -/
theorem produced_repeated {n : Nat} [NeZero n] (c : Place) (wire : Nat)
    (out : List (BitVec (8 * n))) :
    produced (repeatedEvents c n r wire) + r.p ≤ (repeated n r wire out).1.p + 1 := by
  unfold repeatedEvents
  split
  next hw =>
    obtain ⟨hp, hle, hfin⟩ := sub_between r
    have hloop := produced_repeatedLoop (n := n) (c.sub r) hle
    have hr : (repeated n r wire out).1.p = r.sub.2.p := by rw [repeated, if_pos hw]
    rw [hr, produced_append, produced_subEvents]
    omega
  next hw =>
    have hr : (repeated n r wire out).1 = (r.fixed n).2 := by rw [repeated, if_neg hw]
    have := (Reader.advances_fixed n r).le
    simp only [produced_append, produced_fixedEvents, produced_cons, produced_nil, Event.size, hr]
    omega

theorem produced_name (c : Place) (r : Reader) :
    produced (nameEvents c r) + r.p ≤ r.sub.2.p := by
  obtain ⟨hp, hle, hfin⟩ := sub_between r
  simp only [nameEvents, produced_append, produced_subEvents, produced_readsFrom, produced_cons,
    produced_nil, Event.size]
  omega

/-- What a payload adds. -/
theorem produced_payload (field : MsgKind) (f : Int) (w : Nat) (c : Place) (m : Msg) :
    produced (payloadEvents c field f w r) + r.p ≤ (decodePayload field f w r m).1.p + 1 := by
  have hle := (advances_decodePayload field f w r m).le
  unfold payloadEvents
  split
  next hc =>
    obtain ⟨rfl, rfl⟩ := hc
    rw [decodePayload_q]
    exact produced_repeated (n := 8) c w m.q
  next hq =>
    split
    next hc =>
      obtain ⟨rfl, rfl⟩ := hc
      rw [decodePayload_pos]
      exact produced_repeated (n := 4) c w m.pos
    next hpos =>
      split
      next hc =>
        obtain ⟨rfl, rfl, rfl⟩ := hc
        have hr : (decodePayload .trackerAdded 4 2 r m).1 = r.sub.2 :=
          decodePayload_fst 2 r m (by decide)
        rw [hr]
        exact Nat.le_succ_of_le (produced_name c r)
      next => rw [produced_skipEvents]; omega

theorem varintFrom_of_fail {shift v : Nat} (hok : r.ok = true)
    (h : (r.varintFrom shift v).2.ok = false) : (r.varintFrom shift v).1 = 0 := by
  fun_induction Reader.varintFrom r shift v with
  | case1 r shift v hc b v' hb =>
    rw [show (r.advance 1).ok = r.ok from rfl, hok] at h
    cases h
  | case2 r shift v hc b v' hb ih => exact ih hok h
  | case3 => rfl

/-- A failed read of a varint gives zero. -/
theorem varint_of_fail (hok : r.ok = true) (h : r.varint.2.ok = false) : r.varint.1 = 0 :=
  varintFrom_of_fail hok h

/-- A tag of zero starts no list and no name. -/
theorem produced_payload_zero (c : Place) (field : MsgKind) (r : Reader) :
    produced (payloadEvents c field (tagField 0) (tagWire 0) r) = 0 := by
  have hf : tagField 0 = 0 := by decide
  unfold payloadEvents
  rw [hf, if_neg (by simp), if_neg (by simp), if_neg (by simp), produced_skipEvents]

/-- **A field adds no more than its bytes.** The tag pays for the number of a failed read. -/
theorem produced_field (field : MsgKind) (c : Place) (m : Msg) (hok : r.ok = true) :
    produced (fieldEvents c field r) + r.p ≤ (decodeField field r m).1.p := by
  have htag := (Reader.advances_varint r).le
  have hle := (advances_decodeField field r m).le
  rw [fieldEvents, produced_append, produced_varintEvents]
  cases hv : r.varint.2.ok with
  | true =>
    have hlt := Reader.lt_varint hv
    have hpay := produced_payload (r := r.varint.2) field (tagField r.varint.1)
      (tagWire r.varint.1) c m
    have hfield : decodeField field r m
        = decodePayload field (tagField r.varint.1) (tagWire r.varint.1) r.varint.2 m := rfl
    rw [hfield]
    omega
  | false =>
    rw [varint_of_fail hok hv, produced_payload_zero]
    omega

theorem ok_of_not_done (h : ¬r.done = true) : r.ok = true := by
  simp only [Reader.done, Bool.or_eq_true, not_or, Bool.not_eq_true', Bool.not_eq_false] at h
  exact h.2

theorem produced_body (field : MsgKind) (c : Place) (m : Msg) :
    produced (bodyEvents c field r m) + r.p ≤ (decodeBody field r m).1.p := by
  fun_induction bodyEvents c field r m with
  | case1 r m hd =>
    rw [decodeBody, dif_pos hd]
    simp
  | case2 r m hd ih =>
    have hfield := produced_field field c m (ok_of_not_done hd)
    rw [decodeBody, dif_neg hd, produced_append]
    omega

theorem advances_decodeBody (field : MsgKind) (r : Reader) (m : Msg) :
    Reader.Advances r (decodeBody field r m).1 := by
  fun_induction decodeBody field r m with
  | case1 r m hd => exact ⟨rfl, rfl, Nat.le_refl _, id, id⟩
  | case2 r m hd ih => exact (advances_decodeField' field r m).trans ih

theorem produced_topField (c : Place) (m : Msg) :
    produced (topFieldEvents c r) + r.p ≤ (decodeTopField r m).1.p := by
  have htag := (Reader.advances_varint r).le
  have hle := (advances_decodeTopField r m).le
  rw [topFieldEvents, produced_append, produced_varintEvents]
  cases hk : tagMember r.varint.1 with
  | none =>
    simp only [produced_skipEvents]
    omega
  | some field =>
    have htop : (decodeTopField r m).1.p = r.varint.2.sub.2.p := by
      rw [decodeTopField]
      simp only [hk]
    obtain ⟨hp, hsub, hfin⟩ := sub_between r.varint.2
    have hbody := produced_body (r := r.varint.2.sub.1) field (c.sub r.varint.2)
      { kind := field }
    have ha := advances_decodeBody field r.varint.2.sub.1 { kind := field }
    have hstop := ha.le_fin hsub
    simp only [produced_append, produced_subEvents]
    rw [htop]
    omega

theorem produced_top (c : Place) (m : Msg) :
    produced (topEvents c r m) + r.p ≤ (decodeTop r m).1.p := by
  fun_induction topEvents c r m with
  | case1 r m hd =>
    rw [decodeTop, dif_pos hd]
    simp
  | case2 r m hd ih =>
    have hfield := produced_topField (r := r) c m
    rw [decodeTop, dif_neg hd, produced_append]
    omega

theorem advances_decodeTop (top : Reader) (m : Msg) :
    Reader.Advances top (decodeTop top m).1 := by
  fun_induction decodeTop top m with
  | case1 top m hd => exact ⟨rfl, rfl, Nat.le_refl _, id, id⟩
  | case2 top m hd ih => exact (advances_decodeTopField' top m).trans ih

theorem produced_decode (data : Bytes) (m : Msg) :
    produced (decodeEvents data m) ≤ data.length := by
  have htop := produced_top (r := topReader data) (topPlace data) m
  have hle := (advances_decodeTop (topReader data) m).le_fin (Nat.zero_le _)
  have hp : (topReader data).p = 0 := rfl
  have hfin : (topReader data).fin = data.length := rfl
  rw [decodeEvents, produced_cons, size_stands]
  omega

/-- What a message holds of variable length. -/
def Msg.size (m : Msg) : Nat := m.q.length + m.pos.length + m.name.length

theorem length_repeatedLoop {n : Nat} [NeZero n] (c : Place) (out : List (BitVec (8 * n))) :
    (repeatedLoop n r out).2.length = out.length + produced (repeatedLoopEvents c n r) := by
  fun_induction repeatedLoop n r out with
  | case1 r out hd =>
    rw [repeatedLoopEvents, dif_pos hd]
    rfl
  | case2 r out hd ih =>
    rw [repeatedLoopEvents, dif_neg hd, ih, List.length_append, List.length_singleton]
    simp only [produced_append, produced_fixedEvents, produced_cons, Event.size]
    omega

/-- A list grows by the numbers that are pushed. -/
theorem length_repeated {n : Nat} [NeZero n] (c : Place) (wire : Nat)
    (out : List (BitVec (8 * n))) :
    (repeated n r wire out).2.length = out.length + produced (repeatedEvents c n r wire) := by
  unfold repeated repeatedEvents
  split
  · simp only [produced_append, produced_subEvents, Nat.zero_add]
    exact length_repeatedLoop (c.sub r) out
  · simp [Event.size]

theorem length_slice_le (r : Reader) : r.slice.length ≤ r.fin - r.p := List.length_take_le _ _

theorem setWipSetting_size (f : Int) (on : Bool) (m : Msg) :
    (setWipSetting f on m).size = m.size := by
  unfold setWipSetting
  repeat' split
  all_goals rfl

theorem size_le_ite {α : Type} {k : Prop} [Decidable k] {x y : α × Msg} {n : Nat}
    (h : k → x.2.size ≤ n) (h' : ¬k → y.2.size ≤ n) : (if k then x else y).2.size ≤ n := by
  split
  next hk => exact h hk
  next hk => exact h' hk

theorem size_payload {field : MsgKind} {f : Int} {w : Nat} (c : Place) (m : Msg) :
    (decodePayload field f w r m).2.size
      ≤ m.size + produced (payloadEvents c field f w r) := by
  have hsame : m.size ≤ m.size + produced (payloadEvents c field f w r) := Nat.le_add_right _ _
  unfold decodePayload
  refine size_le_ite (fun _ => hsame) fun _ => ?_
  refine size_le_ite (fun hc => ?_) fun hq => ?_
  · rw [payloadEvents, if_pos hc]
    have := length_repeated (n := 8) (r := r) c w m.q
    simp only [Msg.size]
    omega
  refine size_le_ite (fun hc => ?_) fun hpos => ?_
  · rw [payloadEvents, if_neg hq, if_pos hc]
    have := length_repeated (n := 4) (r := r) c w m.pos
    simp only [Msg.size]
    omega
  refine size_le_ite (fun _ => hsame) fun _ => ?_
  refine size_le_ite (fun hc => ?_) fun _ => ?_
  · rw [payloadEvents, if_neg hq, if_neg hpos, if_pos hc]
    have := length_slice_le r.sub.1
    simp only [Msg.size, nameEvents, produced_append, produced_subEvents, produced_readsFrom,
      produced_cons, produced_nil, Event.size]
    omega
  refine size_le_ite (fun _ => hsame) fun _ => ?_
  refine size_le_ite (fun _ => hsame) fun _ => ?_
  refine size_le_ite (fun _ => ?_) fun _ => ?_
  · rw [setWipSetting_size]
    exact hsame
  refine size_le_ite (fun _ => hsame) fun _ => ?_
  refine size_le_ite (fun _ => hsame) fun _ => ?_
  refine size_le_ite (fun _ => hsame) fun _ => ?_
  exact hsame

theorem size_body (field : MsgKind) (c : Place) (m : Msg) :
    (decodeBody field r m).2.size ≤ m.size + produced (bodyEvents c field r m) := by
  fun_induction bodyEvents c field r m with
  | case1 r m hd =>
    rw [decodeBody, dif_pos hd]
    exact Nat.le_add_right _ _
  | case2 r m hd ih =>
    have hfield : (decodeField field r m).2.size
        ≤ m.size + produced (payloadEvents c field (tagField r.varint.1) (tagWire r.varint.1)
            r.varint.2) := size_payload c m
    rw [decodeBody, dif_neg hd, produced_append, fieldEvents, produced_append,
      produced_varintEvents]
    omega

/-- A member starts with an empty message, so what the one before held is not counted twice. -/
theorem size_topField (c : Place) (m : Msg) :
    (decodeTopField r m).2.size ≤ m.size + produced (topFieldEvents c r) := by
  rw [topFieldEvents, produced_append, produced_varintEvents]
  cases hk : tagMember r.varint.1 with
  | none =>
    have hm : (decodeTopField r m).2 = m := by
      rw [decodeTopField]
      simp only [hk]
    rw [hm]
    exact Nat.le_add_right _ _
  | some field =>
    have hm : (decodeTopField r m).2
        = (decodeBody field r.varint.2.sub.1 { kind := field }).2 := by
      rw [decodeTopField]
      simp only [hk]
    have hbody := size_body (r := r.varint.2.sub.1) field (c.sub r.varint.2)
      { kind := field }
    have hempty : ({ kind := field } : Msg).size = 0 := rfl
    rw [hm]
    simp only [produced_append, produced_subEvents]
    omega

theorem size_top (c : Place) (m : Msg) :
    (decodeTop r m).2.size ≤ m.size + produced (topEvents c r m) := by
  fun_induction topEvents c r m with
  | case1 r m hd =>
    rw [decodeTop, dif_pos hd]
    exact Nat.le_add_right _ _
  | case2 r m hd ih =>
    have hfield := size_topField (r := r) c m
    rw [decodeTop, dif_neg hd, produced_append]
    omega

/-! ## Every loop ends -/

/-- The loop stops with a reader that is done, after at most as many passes as it had bytes. -/
def Ends {σ α : Type} (l : Loop σ α) : Prop :=
  ∀ r s, ∃ k ≤ r.remaining,
    l.run r s = (Function.uncurry l.body)^[k] (r, s) ∧ (l.run r s).1.done = true

theorem ends_of_remaining_lt {σ α : Type} {l : Loop σ α}
    (h : ∀ r s, r.done = false → (l.body r s).1.remaining < r.remaining) : Ends l := by
  intro r s
  induction hn : r.remaining using Nat.strongRecOn generalizing r s with
  | ind n ih =>
    rw [l.run_eq]
    cases hd : r.done with
    | true => exact ⟨0, Nat.zero_le n, rfl, hd⟩
    | false =>
      have hlt := h r s hd
      obtain ⟨k, hk, hrun, hdone⟩ :=
        ih (l.body r s).1.remaining (by omega) (l.body r s).1 (l.body r s).2 rfl
      exact ⟨k + 1, by omega, hrun, hdone⟩

def Event.isRead : Event → Bool
  | .read _ => true
  | _ => false

/-- A varint takes at most ten bytes. -/
theorem varintFromEvents_reads (k : Nat) : ∀ (c : Place) (r : Reader) (shift : Nat),
    70 ≤ shift + 7 * k → (varintFromEvents c r shift).countP Event.isRead ≤ k := by
  induction k with
  | zero =>
    intro c r shift h
    rw [varintFromEvents, if_neg (by omega)]
    rfl
  | succ k ih =>
    intro c r shift h
    rw [varintFromEvents]
    split
    · split
      · exact Nat.succ_le_succ (Nat.zero_le k)
      · have := ih c (r.advance 1) (shift + 7) (by omega)
        rw [List.countP_cons_of_pos rfl,
          List.countP_cons_of_neg (by simp [Event.isRead, Place.stands])]
        omega
    · exact Nat.zero_le _

theorem bodyLoop_ends (field : MsgKind) : Ends (bodyLoop field) :=
  ends_of_remaining_lt fun r m hd =>
    Nat.lt_of_le_of_lt (advances_decodeField field r m).remaining_le
      (Reader.remaining_varint_lt hd)

theorem topLoop_ends : Ends topLoop :=
  ends_of_remaining_lt fun top m hd =>
    Nat.lt_of_le_of_lt (advances_decodeTopField top m).remaining_le
      (Reader.remaining_varint_lt hd)

theorem packedLoop_ends (n : Nat) [NeZero n] : Ends (packedLoop n) :=
  ends_of_remaining_lt fun _ _ hd => Reader.remaining_fixed_lt (Nat.pos_of_neZero n) hd

/-! ## The whole -/

/-- What `decode` does with an input of any content. -/
structure Bounded (data : Bytes) (m : Msg) : Prop where
  within : AllWithin data.length (decodeEvents data m)
  produced_le : produced (decodeEvents data m) ≤ data.length
  /-- The message holds no more, besides what it held before. -/
  size_le : (decode data m).2.size ≤ m.size + data.length
  top_ends : Ends topLoop
  body_ends : ∀ field, Ends (bodyLoop field)
  packed_ends : ∀ (n : Nat) [NeZero n], Ends (packedLoop n)
  varint_ends : ∀ c r, (varintEvents c r).countP Event.isRead ≤ 10

/-- **`decode` stays within its input and ends.** -/
theorem decode_bounded (data : Bytes) (m : Msg) : Bounded data m where
  within := by
    have hplaced := placed_topReader data
    rw [decodeEvents, allWithin_cons]
    exact ⟨hplaced.within, topEvents_within m hplaced⟩
  produced_le := produced_decode data m
  size_le := by
    have hsize := size_top (r := topReader data) (topPlace data) m
    have hle := produced_decode data m
    have hdecode : (decode data m).2 = (decodeTop (topReader data) m).2 := rfl
    rw [decodeEvents, produced_cons, size_stands] at hle
    rw [hdecode]
    omega
  top_ends := topLoop_ends
  body_ends := bodyLoop_ends
  packed_ends := fun n _ => packedLoop_ends n
  varint_ends := fun c r => varintFromEvents_reads 10 c r 0 (by omega)

end Rebocap.Proto
