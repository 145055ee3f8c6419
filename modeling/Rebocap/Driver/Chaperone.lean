import Rebocap.Driver.Frame

/-!
# Chaperone data

`SearchUniverse`, and the three sources that `UpdateUniverse` searches one after the other. Parsing
and reading files is not modelled: a source is the parsed value, or there is none, or it throws.

* `Sources.lookup_id` — the universe that is found for an id has this id
-/

namespace Rebocap.Driver

open Lib FloatOrder Arith

variable {D : Type}

/-! ## JSON values -/

/-- `nlohmann::json`. A failed parse gives the discarded value. -/
inductive Json (D : Type) where
  | null
  | boolean (b : Bool)
  | unsigned (v : UInt64)
  | integer (v : Int64)
  | float (v : D)
  | string (s : String)
  | array (elements : List (Json D))
  | object (members : List (String × Json D))
  | discarded

/-- What can be thrown in a search: an accessor does not fit the value, or something else fails. -/
inductive Thrown where
  | access
  | other
deriving DecidableEq

namespace Json

def isObject : Json D → Bool
  | .object _ => true
  | _ => false

def isArray : Json D → Bool
  | .array _ => true
  | _ => false

def isString : Json D → Bool
  | .string _ => true
  | _ => false

def isNumberUnsigned : Json D → Bool
  | .unsigned _ => true
  | _ => false

/-- Unsigned numbers are integers too. -/
def isNumberInteger : Json D → Bool
  | .unsigned _ | .integer _ => true
  | _ => false

def isNumber : Json D → Bool
  | .unsigned _ | .integer _ | .float _ => true
  | _ => false

/-- `find`. What is no object has no members. -/
def find (key : String) : Json D → Option (Json D)
  | .object members => members.lookup key
  | _ => none

def elements : Json D → Except Thrown (List (Json D))
  | .array es => .ok es
  | _ => .error .access

/-- `[i]` on a constant array. -/
def element (i : Nat) : Json D → Except Thrown (Json D)
  | .array es =>
    match es[i]? with
    | some e => .ok e
    | none => .error .access
  | _ => .error .access

def getString : Json D → Except Thrown String
  | .string s => .ok s
  | _ => .error .access

def getUnsigned : Json D → Except Thrown UInt64
  | .unsigned v => .ok v
  | _ => .error .access

def getInteger : Json D → Except Thrown Int64
  | .unsigned v => .ok v.toInt64
  | .integer v => .ok v
  | _ => .error .access

/-- `get<double>`. -/
def getDouble [FloatOrder D] [Arith D] : Json D → Except Thrown D
  | .unsigned v => .ok (literal v.toNat 0)
  | .integer v =>
    .ok (if v.toInt < 0 then -literal v.toInt.natAbs 0 else literal v.toInt.natAbs 0)
  | .float v => .ok v
  | _ => .error .access

end Json

/-! ## `strtoull` -/

/-- `isspace` in the C locale. -/
def isSpace (c : Char) : Bool := c = ' ' ∨ (9 ≤ c.toNat ∧ c.toNat ≤ 13)

/-- The value of decimal digits. -/
def decimal (digits : List Char) : Nat := digits.foldl (fun n c => 10 * n + (c.toNat - 48)) 0

/-- `std::strtoull(s, nullptr, 10)`. Digits behind a minus sign are negated. -/
def strtoull (s : List Char) : UInt64 :=
  let s := s.dropWhile isSpace
  let (negative, s) := match s with
    | '-' :: s => (true, s)
    | '+' :: s => (false, s)
    | s => (false, s)
  let v := decimal (s.takeWhile Char.isDigit)
  if v > 18446744073709551615 then 18446744073709551615
  else if negative then -UInt64.ofNat v
  else UInt64.ofNat v

/-! ## `SearchUniverse` -/

section Search

variable [FloatOrder D] [Arith D]

/-- The id of an entry. Another type counts as 0. -/
def universeId (uid : Json D) : Except Thrown UInt64 :=
  if uid.isString then do
    let s ← uid.getString
    return strtoull s.toList
  else if uid.isNumberUnsigned then uid.getUnsigned
  else if uid.isNumberInteger then do
    let v ← uid.getInteger
    return v.toUInt64
  else return 0

/-- The yaw is optional. -/
def standingYaw (s : Json D) : Except Thrown D :=
  match s.find "yaw" with
  | some yaw => if yaw.isNumber then yaw.getDouble else return 0
  | none => return 0

/-- What is done with the entry that has the id. -/
def readStanding (u : Json D) (id : UInt64) (out : Universe D) :
    Except Thrown (Bool × Universe D) :=
  match u.find "standing" with
  | none => return (false, out)
  | some s =>
    if ¬s.isObject then return (false, out)
    else
      match s.find "translation" with
      | none => return (false, out)
      | some t =>
        if ¬t.isArray then return (false, out)
        else do
          let es ← t.elements
          if es.length ≠ 3 then return (false, out)
          else if ¬es.all Json.isNumber then return (false, out)
          else
            let x ← (← t.element 0).getDouble
            let y ← (← t.element 1).getDouble
            let z ← (← t.element 2).getDouble
            let yaw ← standingYaw s
            return (true, ⟨id, x, y, z, yaw⟩)

/-- The loop over the entries. -/
def searchEntries (id : UInt64) (out : Universe D) :
    List (Json D) → Except Thrown (Bool × Universe D)
  | [] => return (false, out)
  | u :: us =>
    if ¬u.isObject then searchEntries id out us
    else
      match u.find "universeID" with
      | none => searchEntries id out us
      | some uid => do
        let v ← universeId uid
        if v ≠ id then searchEntries id out us
        else readStanding u id out

def searchUniverse (j : Json D) (id : UInt64) (out : Universe D) :
    Except Thrown (Bool × Universe D) :=
  if ¬j.isObject then return (false, out)
  else
    match j.find "universes" with
    | none => return (false, out)
    | some universes =>
      if ¬universes.isArray then return (false, out)
      else do
        let us ← universes.elements
        searchEntries id out us

/-! ## Sources -/

/-- A parsed text or file, none where the text is empty or the file cannot be read. -/
abbrev Source (D : Type) := Except Thrown (Option (Json D))

/-- `SearchUniverseText` and `SearchUniverseFile`. -/
def searchSource (source : Source D) (id : UInt64) (out : Universe D) :
    Except Thrown (Bool × Universe D) := do
  match ← source with
  | none => return (false, out)
  | some j => searchUniverse j id out

/-- Where `UpdateUniverse` looks for the chaperone data, in its order. -/
structure Sources (D : Type) where
  json : Source D
  path : Source D
  default : Source D

/-- The search of `UpdateUniverse`. All sources fill the same `found`. -/
def Sources.search (s : Sources D) (id : UInt64) : Except Thrown (Bool × Universe D) := do
  let (ok, found) ← searchSource s.json id (Universe.zero 0)
  if ok then return (true, found)
  let (ok, found) ← searchSource s.path id found
  if ok then return (true, found)
  searchSource s.default id found

/-- What `UpdateUniverse` makes of the search: a search that throws finds nothing. -/
def Sources.lookup (s : Sources D) (id : UInt64) : Option (Universe D) :=
  match s.search id with
  | .ok (true, found) => some found
  | _ => none

/-! ## What is found has the id -/

omit [FloatOrder D] [Arith D] in
theorem ok_of_bind {α β : Type} {x : Except Thrown α} {f : α → Except Thrown β} {b : β}
    (h : (x >>= f) = .ok b) : ∃ a, x = .ok a ∧ f a = .ok b := by
  cases x with
  | error e => cases h
  | ok a => exact ⟨a, rfl, h⟩

/-- A search that succeeds has found the id. -/
def FindsId (id : UInt64) (r : Except Thrown (Bool × Universe D)) : Prop :=
  ∀ found, r = .ok (true, found) → found.id = id

omit [FloatOrder D] [Arith D] in
theorem findsId_false (id : UInt64) (out : Universe D) : FindsId id (.ok (false, out)) := by
  intro found h
  cases h

omit [FloatOrder D] [Arith D] in
theorem FindsId.bind {α : Type} {id : UInt64} {x : Except Thrown α}
    {f : α → Except Thrown (Bool × Universe D)} (hf : ∀ a, FindsId id (f a)) :
    FindsId id (x >>= f) := by
  intro found h
  obtain ⟨a, -, ha⟩ := ok_of_bind h
  exact hf a found ha

theorem findsId_readStanding (u : Json D) (id : UInt64) (out : Universe D) :
    FindsId id (readStanding u id out) := by
  unfold readStanding
  split
  · exact findsId_false id out
  · split
    · exact findsId_false id out
    · split
      · exact findsId_false id out
      · split
        · exact findsId_false id out
        · refine .bind fun es => ?_
          split
          · exact findsId_false id out
          · split
            · exact findsId_false id out
            · refine .bind fun _ => .bind fun x => .bind fun _ => .bind fun y =>
                .bind fun _ => .bind fun z => .bind fun yaw => ?_
              intro found h
              cases h
              rfl

theorem findsId_searchEntries (id : UInt64) (out : Universe D) :
    ∀ us : List (Json D), FindsId id (searchEntries id out us) := by
  intro us
  induction us with
  | nil => exact findsId_false id out
  | cons u us ih =>
    unfold searchEntries
    split
    · exact ih
    · split
      · exact ih
      · refine .bind fun v => ?_
        split
        · exact ih
        · exact findsId_readStanding u id out

theorem findsId_searchUniverse (j : Json D) (id : UInt64) (out : Universe D) :
    FindsId id (searchUniverse j id out) := by
  unfold searchUniverse
  split
  · exact findsId_false id out
  · split
    · exact findsId_false id out
    · split
      · exact findsId_false id out
      · exact .bind fun us => findsId_searchEntries id out us

theorem findsId_searchSource (source : Source D) (id : UInt64) (out : Universe D) :
    FindsId id (searchSource source id out) := by
  refine .bind fun j => ?_
  split
  · exact findsId_false id out
  · exact findsId_searchUniverse _ id out

theorem findsId_search (s : Sources D) (id : UInt64) : FindsId id (s.search id) := by
  intro found h
  obtain ⟨⟨ok, out⟩, hjson, h⟩ := ok_of_bind h
  cases ok with
  | true =>
    cases h
    exact findsId_searchSource _ id _ _ hjson
  | false =>
    obtain ⟨⟨ok', out'⟩, hpath, h⟩ := ok_of_bind h
    cases ok' with
    | true =>
      cases h
      exact findsId_searchSource _ id _ _ hpath
    | false => exact findsId_searchSource _ id _ _ h

/-- **The universe that is found for an id has this id.** -/
theorem Sources.lookup_id {s : Sources D} {id : UInt64} {found : Universe D}
    (h : s.lookup id = some found) : found.id = id := by
  unfold Sources.lookup at h
  split at h
  next hs =>
    cases h
    exact findsId_search s id _ hs
  next => cases h

/-- What a step reads where the lookup is a search of the sources. -/
def Io.reading {F ι : Type} (io : Io F D ι) (sources : Sources D) : Io F D ι :=
  { io with chaperone := { io.chaperone with lookup := sources.lookup } }

end Search

end Rebocap.Driver
