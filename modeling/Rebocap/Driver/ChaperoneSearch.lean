import Mathlib.Data.List.TakeWhile
import Rebocap.Driver.Chaperone
import Rebocap.Lib.RatScalar

/-!
# What `SearchUniverse` finds

The search as a pure function: the standing of the first entry that has the id. The accessors are
guarded, so this is what `SearchUniverse` computes.

* `searchUniverse_atomic` — a search leaves `out` as it was, or fills it from one entry
* `matchesIdentity_iff` — where the ids that are computed are those of the entries
-/

namespace Rebocap.Driver

open Lib FloatOrder Arith

variable {D : Type}

/-! ## Entries -/

/-- The id that is computed for a `universeID`. Another type than a string or an integer counts
as 0. -/
def computedId : Json D → UInt64
  | .string s => strtoull s.toList
  | .unsigned v => v
  | .integer v => v.toUInt64
  | _ => 0

theorem universeId_eq (uid : Json D) : universeId uid = .ok (computedId uid) := by
  cases uid <;> rfl

/-- The id of an entry, if it is an object that has one. -/
def entryId (u : Json D) : Option UInt64 := (u.find "universeID").map computedId

def hasId (id : UInt64) (u : Json D) : Bool := entryId u == some id

@[simp] theorem hasId_iff {id : UInt64} {u : Json D} : hasId id u = true ↔ entryId u = some id :=
  beq_iff_eq

theorem find_of_not_object {u : Json D} (h : u.isObject = false) (key : String) :
    u.find key = none := by
  cases u with
  | object members => cases h
  | _ => rfl

/-- The entries of chaperone data. -/
def entriesOf (j : Json D) : Option (List (Json D)) :=
  match j.find "universes" with
  | some (.array us) => some us
  | _ => none

/-- The entry at which the search for an id ends. -/
def matched (j : Json D) (id : UInt64) : Option (Json D) :=
  (entriesOf j).bind (List.find? (hasId id))

theorem matched_eq_some_iff {j : Json D} {id : UInt64} {u : Json D} :
    matched j id = some u ↔ ∃ before after, entriesOf j = some (before ++ u :: after) ∧
      (∀ b ∈ before, hasId id b = false) ∧ hasId id u = true := by
  rw [matched, Option.bind_eq_some_iff]
  constructor
  · rintro ⟨us, hus, hfind⟩
    obtain ⟨hid, before, after, rfl, hbefore⟩ := List.find?_eq_some_iff_append.mp hfind
    exact ⟨before, after, hus, fun b hb => by simpa using hbefore b hb, hid⟩
  · rintro ⟨before, after, hus, hbefore, hid⟩
    exact ⟨_, hus, List.find?_eq_some_iff_append.mpr
      ⟨hid, before, after, rfl, fun b hb => by simp [hbefore b hb]⟩⟩

theorem ok_bind {α β : Type} (a : α) (f : α → Except Thrown β) : (.ok a >>= f) = f a := rfl

section Search

variable [FloatOrder D] [Arith D]

/-- A number, if the value is one. -/
def Json.number? (e : Json D) : Option D := e.getDouble.toOption

theorem getDouble_of_isNumber {e : Json D} (h : e.isNumber = true) :
    ∃ x, e.getDouble = .ok x ∧ e.number? = some x := by
  cases e with
  | unsigned | integer | float => exact ⟨_, rfl, rfl⟩
  | null | boolean | string | array | object | discarded => cases h

theorem number?_of_not_isNumber {e : Json D} (h : e.isNumber = false) : e.number? = none := by
  cases e with
  | unsigned | integer | float => cases h
  | null | boolean | string | array | object | discarded => rfl

/-- The yaw of a standing object, 0 if it has none that is a number. -/
def standingYawOf (s : Json D) : D := ((s.find "yaw").bind Json.number?).getD 0

theorem standingYaw_eq (s : Json D) : standingYaw s = .ok (standingYawOf s) := by
  unfold standingYaw standingYawOf
  cases s.find "yaw" with
  | none => rfl
  | some yaw =>
    dsimp only
    cases h : yaw.isNumber with
    | true =>
      obtain ⟨x, hx, hx'⟩ := getDouble_of_isNumber h
      simp [hx, hx']
    | false =>
      simp [number?_of_not_isNumber h]
      rfl

/-- Three numbers. -/
def translationOf : Json D → Option (D × D × D)
  | .array [a, b, c] => do
    let x ← a.number?
    let y ← b.number?
    let z ← c.number?
    return (x, y, z)
  | _ => none

/-- The standing of an entry, as the universe with the id. -/
def standingOf (id : UInt64) (u : Json D) : Option (Universe D) := do
  let s ← u.find "standing"
  let t ← s.find "translation"
  let (x, y, z) ← translationOf t
  return ⟨id, x, y, z, standingYawOf s⟩

/-- What a search returns that finds this or nothing. -/
def outcome (out : Universe D) : Option (Universe D) → Bool × Universe D
  | some found => (true, found)
  | none => (false, out)

theorem translationOf_of_length {es : List (Json D)} (h : es.length ≠ 3) :
    translationOf (.array es) = none := by
  match es, h with
  | [], _ | [_], _ | [_, _], _ | _ :: _ :: _ :: _ :: _, _ => rfl
  | [_, _, _], h => exact absurd rfl h

theorem numbers_of_all {a b c : Json D} (h : [a, b, c].all Json.isNumber = true) :
    (∃ x, a.getDouble = .ok x ∧ a.number? = some x) ∧
      (∃ y, b.getDouble = .ok y ∧ b.number? = some y) ∧
      ∃ z, c.getDouble = .ok z ∧ c.number? = some z := by
  simp only [List.all_cons, List.all_nil, Bool.and_true, Bool.and_eq_true] at h
  obtain ⟨ha, hb, hc⟩ := h
  exact ⟨getDouble_of_isNumber ha, getDouble_of_isNumber hb, getDouble_of_isNumber hc⟩

theorem translationOf_of_not_all {a b c : Json D} (h : [a, b, c].all Json.isNumber = false) :
    translationOf (.array [a, b, c]) = none := by
  cases ha : a.isNumber with
  | false => simp [translationOf, number?_of_not_isNumber ha]
  | true =>
    cases hb : b.isNumber with
    | false => simp [translationOf, number?_of_not_isNumber hb]
    | true =>
      have hc : c.isNumber = false := by simpa [ha, hb] using h
      simp [translationOf, number?_of_not_isNumber hc]

/-- **No accessor of the standing fails.** -/
theorem readStanding_eq (u : Json D) (id : UInt64) (out : Universe D) :
    readStanding u id out = .ok (outcome out (standingOf id u)) := by
  unfold readStanding standingOf
  cases u.find "standing" with
  | none => rfl
  | some s =>
    simp only [Option.bind_eq_bind, Option.bind_some]
    cases hs : s.isObject with
    | false =>
      rw [find_of_not_object hs]
      rfl
    | true =>
      simp only [not_true, if_false]
      cases s.find "translation" with
      | none => rfl
      | some t =>
        simp only [Option.bind_some]
        cases t with
        | array es =>
          by_cases hlen : es.length = 3
          · obtain ⟨a, b, c, rfl⟩ := List.length_eq_three.mp hlen
            cases hall : [a, b, c].all Json.isNumber with
            | true =>
              obtain ⟨⟨x, hx, hx'⟩, ⟨y, hy, hy'⟩, z, hz, hz'⟩ := numbers_of_all hall
              simp only [translationOf, hx', hy', hz']
              show (if ¬[a, b, c].all Json.isNumber = true then Except.ok (false, out) else _) = _
              rw [if_neg (by simp [hall])]
              simp only [Json.element, List.getElem?_cons_zero, List.getElem?_cons_succ, ok_bind,
                hx, hy, hz, standingYaw_eq]
              rfl
            | false =>
              rw [translationOf_of_not_all hall]
              show (if ¬[a, b, c].all Json.isNumber = true then Except.ok (false, out) else _) = _
              rw [if_pos (by simp [hall])]
              rfl
          · rw [translationOf_of_length hlen]
            show (if ¬es.length = 3 then Except.ok (false, out) else _) = _
            rw [if_pos hlen]
            rfl
        | _ => rfl

/-! ## The search -/

/-- The standing of the first of the entries that has the id. -/
def firstStanding (id : UInt64) (us : List (Json D)) : Option (Universe D) :=
  (us.find? (hasId id)).bind (standingOf id)

theorem searchEntries_eq (id : UInt64) (out : Universe D) : ∀ us : List (Json D),
    searchEntries id out us = .ok (outcome out (firstStanding id us)) := by
  intro us
  induction us with
  | nil => rfl
  | cons u us ih =>
    have hskip (h : entryId u ≠ some id) :
        firstStanding id (u :: us) = firstStanding id us := by
      rw [firstStanding, List.find?_cons_of_neg (by simpa using h)]
      rfl
    unfold searchEntries
    cases hu : u.isObject with
    | false =>
      rw [if_pos (by simp), ih, hskip]
      simp [entryId, find_of_not_object hu]
    | true =>
      rw [if_neg (by simp)]
      cases huid : u.find "universeID" with
      | none =>
        rw [ih, hskip]
        simp [entryId, huid]
      | some uid =>
        have hid : entryId u = some (computedId uid) := by rw [entryId, huid, Option.map_some]
        dsimp only
        rw [universeId_eq, ok_bind]
        by_cases hv : computedId uid = id
        · have hfirst : firstStanding id (u :: us) = standingOf id u := by
            rw [firstStanding, List.find?_cons_of_pos (by rw [hasId_iff, hid, hv])]
            rfl
          rw [if_neg (by simpa using hv), readStanding_eq, hfirst]
        · rw [if_pos hv, ih, hskip]
          rw [hid, ne_eq, Option.some.injEq]
          exact hv

/-- What a search for an id finds in chaperone data. -/
def findUniverse (j : Json D) (id : UInt64) : Option (Universe D) :=
  (matched j id).bind (standingOf id)

/-- **No accessor fails**, and `out` is filled as a whole or stays. -/
theorem searchUniverse_eq (j : Json D) (id : UInt64) (out : Universe D) :
    searchUniverse j id out = .ok (outcome out (findUniverse j id)) := by
  unfold searchUniverse findUniverse matched entriesOf
  cases hj : j.isObject with
  | false =>
    rw [find_of_not_object hj]
    rfl
  | true =>
    rw [if_neg (by simp)]
    cases j.find "universes" with
    | none => rfl
    | some universes =>
      cases universes with
      | array us => exact searchEntries_eq id out us
      | _ => rfl

/-! ## What is found -/

/-- The yaw of a standing object: a number, or 0 where there is none. -/
def IsYaw (s : Json D) (yaw : D) : Prop :=
  (∃ v, s.find "yaw" = some v ∧ v.isNumber = true ∧ v.getDouble = .ok yaw) ∨
    ((∀ v, s.find "yaw" = some v → v.isNumber = false) ∧ yaw = 0)

/-- The values are those of the standing object of the entry `u`. -/
def StandingValues (u : Json D) (found : Universe D) : Prop :=
  ∃ s a b c, u.find "standing" = some s ∧ s.find "translation" = some (.array [a, b, c]) ∧
    a.getDouble = .ok found.x ∧ b.getDouble = .ok found.y ∧ c.getDouble = .ok found.z ∧
    IsYaw s found.yaw

/-- `found` has the id, and the values of the first entry that has it. -/
def FoundIn (j : Json D) (id : UInt64) (found : Universe D) : Prop :=
  found.id = id ∧ ∃ before u after, entriesOf j = some (before ++ u :: after) ∧
    (∀ b ∈ before, entryId b ≠ some id) ∧ entryId u = some id ∧ StandingValues u found

theorem isYaw_standingYawOf (s : Json D) : IsYaw s (standingYawOf s) := by
  unfold IsYaw standingYawOf
  cases hs : s.find "yaw" with
  | none => exact .inr ⟨nofun, rfl⟩
  | some v =>
    cases hv : v.isNumber with
    | true =>
      obtain ⟨x, hx, hx'⟩ := getDouble_of_isNumber hv
      refine .inl ⟨v, rfl, hv, ?_⟩
      rw [Option.bind_some, hx', Option.getD_some, hx]
    | false =>
      refine .inr ⟨fun w hw => ?_, ?_⟩
      · cases hw
        exact hv
      · rw [Option.bind_some, number?_of_not_isNumber hv]
        rfl

theorem getDouble_of_number? {e : Json D} {x : D} (h : e.number? = some x) :
    e.getDouble = .ok x := by
  cases hn : e.isNumber with
  | true =>
    obtain ⟨y, hy, hy'⟩ := getDouble_of_isNumber hn
    rw [hy', Option.some.injEq] at h
    rw [hy, h]
  | false =>
    rw [number?_of_not_isNumber hn] at h
    cases h

theorem exists_of_translationOf {t : Json D} {x y z : D} (h : translationOf t = some (x, y, z)) :
    ∃ a b c, t = .array [a, b, c] ∧ a.getDouble = .ok x ∧ b.getDouble = .ok y ∧
      c.getDouble = .ok z := by
  unfold translationOf at h
  split at h
  next a b c =>
    simp only [Option.bind_eq_bind, Option.bind_eq_some_iff] at h
    obtain ⟨x', hx, y', hy, z', hz, h⟩ := h
    cases h
    exact ⟨a, b, c, rfl, getDouble_of_number? hx, getDouble_of_number? hy,
      getDouble_of_number? hz⟩
  next => cases h

theorem standingValues_of_standingOf {u : Json D} {id : UInt64} {found : Universe D}
    (h : standingOf id u = some found) : found.id = id ∧ StandingValues u found := by
  unfold standingOf at h
  simp only [Option.bind_eq_bind, Option.bind_eq_some_iff] at h
  obtain ⟨s, hs, t, ht, ⟨x, y, z⟩, hxyz, h⟩ := h
  cases h
  obtain ⟨a, b, c, rfl, ha, hb, hc⟩ := exists_of_translationOf hxyz
  exact ⟨rfl, s, a, b, c, hs, ht, ha, hb, hc, isYaw_standingYawOf s⟩

theorem foundIn_of_findUniverse {j : Json D} {id : UInt64} {found : Universe D}
    (h : findUniverse j id = some found) : FoundIn j id found := by
  obtain ⟨u, hu, hstanding⟩ := Option.bind_eq_some_iff.mp h
  obtain ⟨before, after, hus, hbefore, hid⟩ := matched_eq_some_iff.mp hu
  obtain ⟨hfound, hvalues⟩ := standingValues_of_standingOf hstanding
  refine ⟨hfound, before, u, after, hus, fun b hb hc => ?_, hasId_iff.mp hid, hvalues⟩
  have hskip := hbefore b hb
  rw [hasId_iff.mpr hc] at hskip
  cases hskip

/-! ## The sources -/

/-- A source of this content leaves `found` as it is. -/
def Fails (content : Option (Json D)) (id : UInt64) : Prop :=
  ∀ out : Universe D, searchSource (.ok content) id out = .ok (false, out)

/-- A source of this content fills `found`, whatever it held before. -/
def Fills (content : Option (Json D)) (id : UInt64) (found : Universe D) : Prop :=
  ∀ out : Universe D, searchSource (.ok content) id out = .ok (true, found)

theorem fails_or_fills (content : Option (Json D)) (id : UInt64) :
    Fails content id ∨ ∃ found, Fills content id found := by
  cases content with
  | none => exact .inl fun _ => rfl
  | some j =>
    cases h : findUniverse j id with
    | none =>
      refine .inl fun out => ?_
      show searchUniverse j id out = _
      rw [searchUniverse_eq, h, outcome]
    | some found =>
      refine .inr ⟨found, fun out => ?_⟩
      show searchUniverse j id out = _
      rw [searchUniverse_eq, h, outcome]

/-- The result of a search is that of the first source that succeeds. -/
def FirstFills (contents : List (Option (Json D))) (id : UInt64)
    (result : Except Thrown (Bool × Universe D)) : Prop :=
  (∃ before content after found, contents = before ++ content :: after ∧
    (∀ b ∈ before, Fails b id) ∧ Fills content id found ∧ result = .ok (true, found)) ∨
  ((∀ b ∈ contents, Fails b id) ∧ result = .ok (false, Universe.zero 0))

theorem firstFills_search (a b c : Option (Json D)) (id : UInt64) :
    FirstFills [a, b, c] id (Sources.search ⟨.ok a, .ok b, .ok c⟩ id) := by
  unfold Sources.search
  rcases fails_or_fills a id with ha | ⟨found, ha⟩
  · rw [ha, ok_bind]
    dsimp only
    rw [if_neg (by decide)]
    rcases fails_or_fills b id with hb | ⟨found, hb⟩
    · rw [hb, ok_bind]
      dsimp only
      rw [if_neg (by decide)]
      rcases fails_or_fills c id with hc | ⟨found, hc⟩
      · exact .inr ⟨by simp [ha, hb, hc], hc _⟩
      · exact .inl ⟨[a, b], c, [], found, rfl, by simp [ha, hb], hc, hc _⟩
    · exact .inl ⟨[a], b, [c], found, rfl, by simp [ha], hb, by rw [hb]; rfl⟩
  · exact .inl ⟨[], a, [b, c], found, rfl, by simp, ha, by rw [ha]; rfl⟩

/-- **A search throws nothing, and fills `out` from one entry or leaves it.** Of several sources
the first that succeeds fills it alone. -/
theorem searchUniverse_atomic (id : UInt64) :
    (∀ (j : Json D) (out : Universe D), searchUniverse j id out = .ok (false, out) ∨
      ∃ found, searchUniverse j id out = .ok (true, found) ∧ FoundIn j id found) ∧
    ∀ a b c : Option (Json D),
      FirstFills [a, b, c] id (Sources.search ⟨.ok a, .ok b, .ok c⟩ id) := by
  refine ⟨fun j out => ?_, fun a b c => firstFills_search a b c id⟩
  rw [searchUniverse_eq]
  cases h : findUniverse j id with
  | none => exact .inl rfl
  | some found => exact .inr ⟨found, rfl, foundIn_of_findUniverse h⟩

end Search

/-! ## Ids that are computed and ids that entries have -/

/-- A decimal numeral of a number. -/
def IsNumeral (s : List Char) (id : UInt64) : Prop :=
  s ≠ [] ∧ (∀ c ∈ s, c.isDigit = true) ∧ decimal s = id.toNat

/-- A `universeID` that is the id: an integer equal to it, or a decimal numeral of it. -/
def Identifies (id : UInt64) : Json D → Prop
  | .unsigned v => v = id
  | .integer v => v.toInt = id.toNat
  | .string s => IsNumeral s.toList id
  | _ => False

/-- The entry is one of the universe with the id. -/
def IsEntryOf (id : UInt64) (u : Json D) : Prop :=
  ∃ uid, u.find "universeID" = some uid ∧ Identifies id uid

/-- A `universeID` from which the id is computed, although it is not the id: a string that is no
numeral of the id but that `strtoull` takes for it (what is behind the digits is ignored, blanks
and a sign in front are taken, a number that is too large saturates, and without digits it is 0),
a negative integer that is the id modulo `2 ^ 64`, or, for the id 0, any value that is neither. -/
def Mistaken (id : UInt64) : Json D → Prop
  | .unsigned _ => False
  | .integer v => v.toInt < 0 ∧ v.toUInt64 = id
  | .string s => ¬IsNumeral s.toList id ∧ strtoull s.toList = id
  | _ => id = 0

/-- The entry is taken for one of the universe with the id. -/
def IsMistaken (id : UInt64) (u : Json D) : Prop :=
  ∃ uid, u.find "universeID" = some uid ∧ Mistaken id uid

theorem toUInt64_toNat {v : Int64} (h : 0 ≤ v.toInt) : (v.toUInt64.toNat : Int) = v.toInt := by
  have hcond := BitVec.toInt_eq_toNat_cond v.toBitVec
  have hlt := v.toBitVec.isLt
  have hint : v.toBitVec.toInt = v.toInt := rfl
  have hnat : v.toBitVec.toNat = v.toUInt64.toNat := rfl
  rw [hint] at hcond
  split at hcond <;> omega

theorem not_isSpace_of_isDigit {c : Char} (h : c.isDigit = true) :
    isSpace c = false ∧ c ≠ '-' ∧ c ≠ '+' := by
  have hrange : 48 ≤ c.toNat ∧ c.toNat ≤ 57 := by
    simpa [Char.isDigit, UInt32.le_iff_toNat_le] using h
  refine ⟨?_, ?_, ?_⟩
  · rw [isSpace, decide_eq_false_iff_not]
    rintro (rfl | hspace)
    · exact absurd hrange (by decide)
    · omega
  · rintro rfl
    exact absurd hrange (by decide)
  · rintro rfl
    exact absurd hrange (by decide)

/-- `strtoull` reads numerals. -/
theorem strtoull_of_isNumeral {s : List Char} {id : UInt64} (h : IsNumeral s id) :
    strtoull s = id := by
  obtain ⟨hne, hdigits, hvalue⟩ := h
  cases s with
  | nil => exact absurd rfl hne
  | cons c rest =>
    obtain ⟨hspace, hminus, hplus⟩ := not_isSpace_of_isDigit (hdigits c List.mem_cons_self)
    have hdrop : (c :: rest).dropWhile isSpace = c :: rest := by
      rw [List.dropWhile_cons_of_neg (by simp [hspace])]
    have htake : (c :: rest).takeWhile Char.isDigit = c :: rest := by
      simpa [List.takeWhile_eq_self_iff] using hdigits
    have hlt := id.toNat_lt
    rw [strtoull, hdrop]
    split
    next negative digits hsign =>
      split at hsign
      next hm => exact absurd (List.cons.inj hm).1 hminus
      next hm => exact absurd (List.cons.inj hm).1 hplus
      next =>
        cases hsign
        simp only [htake, hvalue]
        rw [if_neg (by omega), if_neg (by decide), UInt64.ofNat_toNat]

/-- **An id is computed from the ids that are it and from those that are mistaken for it.** -/
theorem computedId_eq_iff {uid : Json D} {id : UInt64} :
    computedId uid = id ↔ Identifies id uid ∨ Mistaken id uid := by
  cases uid with
  | unsigned v => exact ⟨.inl, fun h => h.elim (·) nofun⟩
  | integer v =>
    have hiff : 0 ≤ v.toInt → (v.toUInt64 = id ↔ v.toInt = id.toNat) := by
      intro hv
      have hnat := toUInt64_toNat hv
      rw [← UInt64.toNat_inj]
      omega
    simp only [computedId, Identifies, Mistaken]
    by_cases hv : 0 ≤ v.toInt
    · rw [hiff hv]
      omega
    · constructor
      · exact fun h => .inr ⟨by omega, h⟩
      · rintro (h | ⟨-, h⟩)
        · omega
        · exact h
  | string s =>
    simp only [computedId, Identifies, Mistaken]
    by_cases hs : IsNumeral s.toList id
    · simp [hs, strtoull_of_isNumeral hs]
    · simp [hs]
  | null | boolean | float | array | object | discarded =>
    simp only [computedId, Identifies, Mistaken, false_or]
    exact eq_comm

theorem not_mistaken_of_identifies {uid : Json D} {id : UInt64} (h : Identifies id uid) :
    ¬Mistaken id uid := by
  cases uid with
  | unsigned => exact nofun
  | integer v =>
    rintro ⟨hneg, -⟩
    have hpos : v.toInt = _ := h
    omega
  | string => exact fun hm => hm.1 h
  | null | boolean | float | array | object | discarded => cases h

theorem not_isMistaken_of_isEntryOf {u : Json D} {id : UInt64} (h : IsEntryOf id u) :
    ¬IsMistaken id u := by
  rintro ⟨uid, huid, hm⟩
  obtain ⟨uid', huid', hid⟩ := h
  obtain rfl : uid' = uid := Option.some.inj (huid'.symm.trans huid)
  exact not_mistaken_of_identifies hid hm

theorem hasId_iff_isEntryOf {id : UInt64} {u : Json D} :
    hasId id u = true ↔ IsEntryOf id u ∨ IsMistaken id u := by
  rw [hasId_iff, entryId, Option.map_eq_some_iff, IsEntryOf, IsMistaken, ← exists_or]
  exact exists_congr fun uid => by rw [computedId_eq_iff, and_or_left]

/-! ## Entries matched by identity -/

/-- The entry has a standing object with a translation of three numbers. -/
def HasTranslation (u : Json D) : Prop :=
  ∃ s a b c, u.find "standing" = some s ∧ s.find "translation" = some (.array [a, b, c]) ∧
    a.isNumber = true ∧ b.isNumber = true ∧ c.isNumber = true

/-- The first entry of the universe with the id, if there is one, has a translation. -/
def FirstEntryReadable (j : Json D) (id : UInt64) : Prop :=
  ∃ before u after, entriesOf j = some (before ++ u :: after) ∧
    (∀ b ∈ before, ¬IsEntryOf id b) ∧ IsEntryOf id u ∧ HasTranslation u

/-- Entries are matched by identity: the search returns true exactly if the first entry of the id
can be read, and it ends at no other entry. -/
def MatchesIdentity [FloatOrder D] [Arith D] (j : Json D) (id : UInt64) : Prop :=
  (∀ out : Universe D, (∃ found, searchUniverse j id out = .ok (true, found)) ↔
    FirstEntryReadable j id) ∧
  ∀ u, matched j id = some u → IsEntryOf id u

/-- No entry up to the first one of the id is mistaken for it. -/
def NoneMistaken (j : Json D) (id : UInt64) : Prop :=
  ∀ before u after, entriesOf j = some (before ++ u :: after) →
    (∀ b ∈ before, ¬IsEntryOf id b) → ¬IsMistaken id u

section Search

variable [FloatOrder D] [Arith D]

theorem exists_standingOf_iff (id : UInt64) {u : Json D} :
    (∃ found, standingOf id u = some found) ↔ HasTranslation u := by
  constructor
  · rintro ⟨found, h⟩
    obtain ⟨-, s, a, b, c, hs, ht, ha, hb, hc, -⟩ := standingValues_of_standingOf h
    have hnumber {e : Json D} {x : D} (he : e.getDouble = .ok x) : e.isNumber = true := by
      cases e with
      | unsigned | integer | float => rfl
      | null | boolean | string | array | object | discarded => cases he
    exact ⟨s, a, b, c, hs, ht, hnumber ha, hnumber hb, hnumber hc⟩
  · rintro ⟨s, a, b, c, hs, ht, ha, hb, hc⟩
    obtain ⟨x, -, hx⟩ := getDouble_of_isNumber ha
    obtain ⟨y, -, hy⟩ := getDouble_of_isNumber hb
    obtain ⟨z, -, hz⟩ := getDouble_of_isNumber hc
    refine ⟨⟨id, x, y, z, standingYawOf s⟩, ?_⟩
    simp [standingOf, hs, ht, translationOf, hx, hy, hz]

/-- A search returns true exactly if the entry at which it ends has a translation. -/
theorem searchUniverse_true_iff {j : Json D} {id : UInt64} {out : Universe D} :
    (∃ found, searchUniverse j id out = .ok (true, found)) ↔
      ∃ u, matched j id = some u ∧ HasTranslation u := by
  rw [searchUniverse_eq, findUniverse]
  cases hm : matched j id with
  | none => simp [outcome]
  | some u =>
    rw [Option.bind_some]
    cases hs : standingOf id u with
    | none =>
      have hnone : ¬HasTranslation u := by
        rw [← exists_standingOf_iff id, hs]
        exact nofun
      simp [outcome, hnone]
    | some found =>
      have hsome : HasTranslation u := (exists_standingOf_iff id).mp ⟨found, hs⟩
      simp [outcome, hsome]

omit [FloatOrder D] [Arith D] in
/-- What the search skips is no entry of the id. -/
theorem not_isEntryOf_of_skipped {id : UInt64} {before : List (Json D)}
    (h : ∀ b ∈ before, hasId id b = false) : ∀ b ∈ before, ¬IsEntryOf id b := by
  intro b hb hc
  have hskip := h b hb
  rw [hasId_iff_isEntryOf.mpr (.inl hc)] at hskip
  cases hskip

omit [FloatOrder D] [Arith D] in
/-- What stands in front of the first entry of the id is skipped where nothing is mistaken. -/
theorem skipped_of_noneMistaken {j : Json D} {id : UInt64} {before rest : List (Json D)}
    (h : NoneMistaken j id) (hus : entriesOf j = some (before ++ rest))
    (hbefore : ∀ b ∈ before, ¬IsEntryOf id b) : ∀ b ∈ before, hasId id b = false := by
  intro b hb
  rw [Bool.eq_false_iff]
  intro hid
  obtain ⟨front, back, rfl⟩ := List.append_of_mem hb
  rcases hasId_iff_isEntryOf.mp hid with hc | hc
  · exact hbefore b hb hc
  · exact h front b (back ++ rest) (by rw [hus]; simp)
      (fun x hx => hbefore x (List.mem_append_left _ hx)) hc

omit [FloatOrder D] [Arith D] in
/-- The search ends at an entry of the id exactly if none is mistaken for one. -/
theorem ends_iff_noneMistaken {j : Json D} {id : UInt64} :
    (∀ u, matched j id = some u → IsEntryOf id u) ↔ NoneMistaken j id := by
  constructor
  · intro hends before u after hus hbefore hmistaken
    have hu : hasId id u = true := hasId_iff_isEntryOf.mpr (.inr hmistaken)
    -- the search ends at the mistaken entry or at one in front of it
    rcases hfind : before.find? (hasId id) with _ | w
    · have hfirst : matched j id = some u := by
        rw [matched, hus, Option.bind_some, List.find?_append, hfind, List.find?_cons_of_pos hu]
        rfl
      exact not_isMistaken_of_isEntryOf (hends u hfirst) hmistaken
    · have hfirst : matched j id = some w := by
        rw [matched, hus, Option.bind_some, List.find?_append, hfind]
        rfl
      exact hbefore w (List.mem_of_find?_eq_some hfind) (hends w hfirst)
  · intro h u hu
    obtain ⟨before, after, hus, hbefore, hid⟩ := matched_eq_some_iff.mp hu
    exact (hasId_iff_isEntryOf.mp hid).resolve_right
      (h before u after hus (not_isEntryOf_of_skipped hbefore))

/-- **Entries are matched by identity exactly if none is mistaken for the id in front of the first
one that has it.** -/
theorem matchesIdentity_iff (j : Json D) (id : UInt64) :
    MatchesIdentity j id ↔ NoneMistaken j id := by
  refine ⟨fun h => ends_iff_noneMistaken.mp h.2, fun h => ?_⟩
  have hends := ends_iff_noneMistaken.mpr h
  refine ⟨fun out => ?_, hends⟩
  rw [searchUniverse_true_iff]
  constructor
  · rintro ⟨u, hu, ht⟩
    obtain ⟨before, after, hus, hbefore, -⟩ := matched_eq_some_iff.mp hu
    exact ⟨before, u, after, hus, not_isEntryOf_of_skipped hbefore, hends u hu, ht⟩
  · rintro ⟨before, u, after, hus, hbefore, hu, ht⟩
    have hskipped := skipped_of_noneMistaken h hus hbefore
    have hfirst : matched j id = some u := matched_eq_some_iff.mpr
      ⟨before, after, hus, hskipped, hasId_iff_isEntryOf.mpr (.inl hu)⟩
    exact ⟨u, hfirst, ht⟩

end Search

/-- An entry whose id has a letter behind the digits. -/
def sevenX : Json ℚ :=
  .object [("universeID", .string "7x"),
    ("standing", .object [("translation", .array [.unsigned 0, .unsigned 0, .unsigned 0])])]

/-- `strtoull` reads the digits, and the entry is taken for that of universe 7. -/
theorem not_matchesIdentity_sevenX :
    ¬MatchesIdentity (.object [("universes", .array [sevenX])]) 7 := by
  rintro ⟨-, hends⟩
  have hid : hasId 7 sevenX = true := by decide +kernel
  obtain ⟨uid, huid, hidentifies⟩ := hends sevenX
    (matched_eq_some_iff.mpr ⟨[], [], rfl, by simp, hid⟩)
  obtain rfl : Json.string "7x" = uid := Option.some.inj huid
  exact absurd (hidentifies.2.1 'x' (by decide)) (by decide)

end Rebocap.Driver
