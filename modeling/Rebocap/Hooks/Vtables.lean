import Rebocap.Lib.Pages
import Rebocap.Lib.Run

/-!
# Installing and removing the hooks

`Install` writes the hooks into two vtables of vrserver and `Remove` writes the original functions
back. Other drivers call through these vtables all the time, and their pages are read-only.

* `Image.patched_iff` — a call reaches the original function at any moment, no write faults, and
  after `Remove` no slot leads into the driver, as long as `mprotect` does not fail in `Remove`
-/

namespace Rebocap.Hooks

open Lib

/-! ## The vtables -/

/-- The hooks of `input_hooks.hpp`, which are in the vtable of `IVRDriverInput`, and the one of
`pose_hooks.hpp`, which is in the vtable of `IVRServerDriverHost`. -/
inductive Site where
  | input
  | pose
deriving DecidableEq

namespace Site

/-- The first slot that is written. -/
def first : Site → Nat
  | .input => 0
  | .pose => 1 -- `kPoseUpdatedSlot`

/-- How many are written: `kSlotCount` for the input hooks. -/
def count : Site → Nat
  | .input => 4
  | .pose => 1

end Site

/-- Where the vtables are, and the functions of the driver. -/
structure Layout where
  /-- The size of a page is `2 ^ pageBits`. -/
  pageBits : Nat
  vtable : Site → BitVec 64
  hook : Site → Nat → BitVec 64
  pageBits_lt : pageBits < 64
  /-- The vtables are not at the very end of the address space. -/
  fits : ∀ m, (vtable m).toNat + 8 * (m.first + m.count) + 2 ^ pageBits ≤ 2 ^ 64
  /-- They do not overlap. -/
  apart : ∀ i j, i < Site.input.count → j < Site.pose.count →
    (vtable .input).toNat + 8 * (Site.input.first + i) ≠
      (vtable .pose).toNat + 8 * (Site.pose.first + j)

namespace Layout

variable (l : Layout)

def page : BitVec 64 := .twoPow 64 l.pageBits

/-- The address of a slot that is written. -/
def slot (m : Site) (i : Nat) : Nat := (l.vtable m).toNat + 8 * (m.first + i)

/-- The range of `mprotect` in `PatchVtable`. -/
def start (m : Site) : BitVec 64 := alignDown l.page (l.vtable m + BitVec.ofNat 64 (8 * m.first))

def stop (m : Site) : BitVec 64 :=
  alignUp l.page (l.vtable m + BitVec.ofNat 64 (8 * (m.first + m.count)))

/-- The page is in it. -/
def InRange (m : Site) (n : Nat) : Prop :=
  (l.start m).toNat ≤ n * 2 ^ l.pageBits ∧ n * 2 ^ l.pageBits < (l.stop m).toNat

instance (m : Site) (n : Nat) : Decidable (l.InRange m n) := inferInstanceAs (Decidable (_ ∧ _))

end Layout

/-! ## Installing and removing -/

/-- Where the driver's thread is. `install` says whether it is in `Install` or in `Remove`. -/
inductive Place where
  | idle
  /-- Before the first `mprotect` of `PatchVtable`. -/
  | unprotect (m : Site) (install : Bool)
  | store (m : Site) (install : Bool) (i : Nat)
  | protect (m : Site) (install : Bool)
deriving DecidableEq

/-- In `Remove`, before the first `mprotect`. -/
def Place.removing : Place → Bool
  | .unprotect _ false => true
  | _ => false

/-- `g.original` and `g.installed`. -/
structure Hooking where
  original : Nat → BitVec 64
  installed : Bool

/-- The words of the memory by their addresses, the pages, and the driver. -/
structure Image where
  word : Nat → BitVec 64
  writable : Nat → Bool
  hooking : Site → Hooking
  place : Place
  /-- A hook has been in the vtable, so a thread may be in it. -/
  shown : Site → Bool

namespace Image

inductive Event where
  /-- `Install`, with an interface or with a null pointer. -/
  | install (m : Site) (present : Bool)
  | remove (m : Site)
  /-- The thread goes on. `ok` says whether `mprotect` succeeds. -/
  | goOn (ok : Bool)

def init (word : Nat → BitVec 64) (writable : Nat → Bool) : Image where
  word := word
  writable := writable
  hooking := fun _ => ⟨fun _ => 0, false⟩
  place := .idle
  shown := fun _ => false

def setOriginal (m : Site) (f : Nat → BitVec 64) (s : Image) : Image :=
  { s with hooking := Function.update s.hooking m { s.hooking m with original := f } }

def setInstalled (m : Site) (b : Bool) (s : Image) : Image :=
  { s with hooking := Function.update s.hooking m { s.hooking m with installed := b } }

def goto (p : Place) (s : Image) : Image := { s with place := p }

variable (l : Layout)

/-- A successful `mprotect`. -/
def setPages (m : Site) (b : Bool) (s : Image) : Image :=
  { s with writable := fun n => if l.InRange m n then b else s.writable n }

/-- What `PatchVtable` is to write. -/
def value (m : Site) (install : Bool) (i : Nat) (s : Image) : BitVec 64 :=
  if install then l.hook m i else (s.hooking m).original i

def afterStore (m : Site) (install : Bool) (i : Nat) : Place :=
  if i + 1 < m.count then .store m install (i + 1) else .protect m install

/-- A pass of the loop of `PatchVtable`. -/
def store (m : Site) (install : Bool) (i : Nat) (s : Image) : Image :=
  { s with
    word := Function.update s.word (l.slot m i) (s.value l m install i)
    shown := fun m' => s.shown m' || (install && m' == m)
    place := afterStore m install i }

def goOn (ok : Bool) (s : Image) : Image :=
  match s.place with
  | .idle => s
  | .unprotect m install =>
    if ok then (s.setPages l m true).goto (.store m install 0)
    else (s.setInstalled m false).goto .idle
  | .store m install i => s.store l m install i
  | .protect m install =>
    ((if ok then s.setPages l m false else s).setInstalled m install).goto .idle

def step : Event → Image → Image
  | .install m present, s =>
    if s.place ≠ .idle ∨ (s.hooking m).installed = true ∨ present = false then s
    else (s.setOriginal m fun i => s.word (l.slot m i)).goto (.unprotect m true)
  | .remove m, s =>
    if s.place ≠ .idle ∨ (s.hooking m).installed = false then s
    else s.goto (.unprotect m false)
  | .goOn ok, s => s.goOn l ok

/-! ## What is true of every run -/

/-- `mprotect` lets `Remove` write to the vtable. Where it does not, the hooks stay in it with
`g.installed` false, and the next `Install` would take a hook for the original function. -/
def Succeeds : Event → Image → Prop
  | .goOn ok, s => s.place.removing = true → ok = true
  | _, _ => True

instance : ∀ (e : Event) (s : Image), Decidable (Succeeds e s)
  | .goOn ok, s => inferInstanceAs (Decidable (s.place.removing = true → ok = true))
  | .install _ _, _ => isTrue trivial
  | .remove _, _ => isTrue trivial

/-- Other drivers can go on calling through the vtables. -/
structure Patched (word : Nat → BitVec 64) (s : Image) : Prop where
  /-- A call leads to the original function, or to the hook that calls the original function. -/
  called : ∀ m i, i < m.count → s.word (l.slot m i) = word (l.slot m i) ∨
    s.word (l.slot m i) = l.hook m i ∧ (s.hooking m).original i = word (l.slot m i)
  /-- So does a call that has come to a hook before. -/
  entered : ∀ m i, i < m.count → s.shown m = true → (s.hooking m).original i = word (l.slot m i)
  /-- The bytes that are written next can be written. -/
  mapped : ∀ m install i, s.place = .store m install i →
    ∀ b < 8, s.writable ((l.slot m i + b) / 2 ^ l.pageBits) = true
  /-- Nothing else is written. -/
  rest : ∀ a, (∀ m i, i < m.count → a ≠ l.slot m i) → s.word a = word a
  /-- After `Install` all hooks are there, after `Remove` none is. -/
  settled : s.place = .idle → ∀ m i, i < m.count → s.word (l.slot m i) =
    if (s.hooking m).installed then l.hook m i else word (l.slot m i)

end Image

/-! ### The slots -/

namespace Layout

variable {l : Layout}

theorem slot_inj {m m' : Site} {i i' : Nat} (hi : i < m.count) (hi' : i' < m'.count)
    (h : l.slot m i = l.slot m' i') : m = m' ∧ i = i' := by
  cases m with
  | input =>
    cases m' with
    | input => exact ⟨rfl, by simp only [slot] at h; omega⟩
    | pose => exact absurd h (l.apart i i' hi hi')
  | pose =>
    cases m' with
    | input => exact absurd h.symm (l.apart i' i hi' hi)
    | pose => exact ⟨rfl, by simp only [slot] at h; omega⟩

theorem toNat_vtable_add {m : Site} {n : Nat} (hn : n ≤ 8 * (m.first + m.count)) :
    (l.vtable m + BitVec.ofNat 64 n).toNat = (l.vtable m).toNat + n := by
  have hfits := l.fits m
  have hpos := Nat.two_pow_pos l.pageBits
  rw [BitVec.toNat_add, BitVec.toNat_ofNat, Nat.mod_eq_of_lt (by omega : n < 2 ^ 64),
    Nat.mod_eq_of_lt (by omega)]

/-- `mprotect` is called for all pages of a slot. -/
theorem inRange {m : Site} {i b : Nat} (hi : i < m.count) (hb : b < 8) :
    l.InRange m ((l.slot m i + b) / 2 ^ l.pageBits) := by
  have hfirst := toNat_vtable_add (l := l) (m := m) (n := 8 * m.first) (by omega)
  have hlast := toNat_vtable_add (l := l) (m := m) (n := 8 * (m.first + m.count)) le_rfl
  refine covers l.pageBits_lt ?_ ?_ ?_
  · rw [hlast]
    exact l.fits m
  · rw [hfirst, slot]
    omega
  · rw [hlast, slot]
    omega

end Layout

/-! ### The invariant -/

/-- The vtable that the thread is at. -/
def Place.busy : Place → Option (Site × Bool)
  | .idle => none
  | .unprotect m install | .store m install _ | .protect m install => some (m, install)

namespace Image

/-- The hook is in the slot. -/
def hooked (s : Image) (m : Site) (j : Nat) : Bool :=
  match s.place with
  | .idle | .unprotect _ _ => (s.hooking m).installed
  | .store m' install i =>
    if m' = m then (if j < i then install else !install) else (s.hooking m).installed
  | .protect m' install => if m' = m then install else (s.hooking m).installed

variable (l : Layout)

structure Kept (word : Nat → BitVec 64) (s : Image) : Prop where
  called : ∀ m j, j < m.count → s.word (l.slot m j) =
    if s.hooked m j then l.hook m j else word (l.slot m j)
  saved : ∀ m, (s.shown m = true ∨ ∃ install, s.place.busy = some (m, install)) →
    ∀ j, j < m.count → (s.hooking m).original j = word (l.slot m j)
  shown : ∀ m j, j < m.count → s.hooked m j = true → s.shown m = true
  installed : ∀ m install, s.place.busy = some (m, install) →
    (s.hooking m).installed = !install
  writable : ∀ m install i, s.place = .store m install i →
    i < m.count ∧ ∀ n, l.InRange m n → s.writable n = true
  rest : ∀ a, (∀ m i, i < m.count → a ≠ l.slot m i) → s.word a = word a

variable {l} {word : Nat → BitVec 64} {s : Image}

theorem Kept.init (writable : Nat → Bool) : Kept l word (init word writable) where
  called _ _ _ := rfl
  saved _ h := by rcases h with h | ⟨_, h⟩ <;> cases h
  shown _ _ _ h := h
  installed _ _ h := by cases h
  writable _ _ _ h := by cases h
  rest _ _ := rfl

theorem Kept.patched (h : Kept l word s) : Patched l word s where
  called m i hi := by
    have hword := h.called m i hi
    by_cases hh : s.hooked m i = true
    · rw [if_pos hh] at hword
      exact Or.inr ⟨hword, h.saved m (Or.inl (h.shown m i hi hh)) i hi⟩
    · rw [if_neg hh] at hword
      exact Or.inl hword
  entered m i hi hm := h.saved m (Or.inl hm) i hi
  mapped m install i hp b hb := by
    obtain ⟨hi, hw⟩ := h.writable m install i hp
    exact hw _ (Layout.inRange hi hb)
  rest := h.rest
  settled hp m i hi := by
    rw [h.called m i hi, hooked, hp]

/-! ### The steps -/

@[simp] theorem original_setInstalled (m m' : Site) (b : Bool) :
    ((s.setInstalled m b).hooking m').original = (s.hooking m').original := by
  by_cases hm : m' = m
  · subst hm
    simp only [setInstalled, Function.update_self]
  · simp only [setInstalled, Function.update_of_ne hm]

@[simp] theorem installed_setOriginal (m m' : Site) (f : Nat → BitVec 64) :
    ((s.setOriginal m f).hooking m').installed = (s.hooking m').installed := by
  by_cases hm : m' = m
  · subst hm
    simp only [setOriginal, Function.update_self]
  · simp only [setOriginal, Function.update_of_ne hm]

theorem installed_setInstalled (m m' : Site) (b : Bool) :
    ((s.setInstalled m b).hooking m').installed =
      if m = m' then b else (s.hooking m').installed := by
  by_cases hm : m = m'
  · subst hm
    simp only [setInstalled, Function.update_self, if_true]
  · simp only [setInstalled, Function.update_of_ne (Ne.symm hm), if_neg hm]

/-- A step that writes nothing. -/
theorem Kept.of_same (h : Kept l word s) {s' : Image} (hword : s'.word = s.word)
    (hshown : s'.shown = s.shown) (hhooked : ∀ m j, s'.hooked m j = s.hooked m j)
    (hsaved : ∀ m, (s.shown m = true ∨ ∃ install, s'.place.busy = some (m, install)) →
      ∀ j, j < m.count → (s'.hooking m).original j = word (l.slot m j))
    (hinstalled : ∀ m install, s'.place.busy = some (m, install) →
      (s'.hooking m).installed = !install)
    (hwritable : ∀ m install i, s'.place = .store m install i →
      i < m.count ∧ ∀ n, l.InRange m n → s'.writable n = true) : Kept l word s' where
  called m j hj := by
    rw [hword, hhooked]
    exact h.called m j hj
  saved m hm := hsaved m (by rwa [hshown] at hm)
  shown m j hj hh := by
    rw [hshown]
    exact h.shown m j hj (by rwa [hhooked] at hh)
  installed := hinstalled
  writable := hwritable
  rest a ha := by
    rw [hword]
    exact h.rest a ha

/-- `Install` saves the functions that the slots lead to. -/
theorem Kept.install (h : Kept l word s) (m : Site) (present : Bool) :
    Kept l word (step l (.install m present) s) := by
  rw [step]
  split
  · exact h
  next hnot =>
    obtain ⟨hidle, hnot⟩ := not_or.mp hnot
    have hp : s.place = .idle := not_not.mp hidle
    have hi : (s.hooking m).installed = false := by
      simpa using (not_or.mp hnot).1
    refine h.of_same rfl rfl ?_ ?_ ?_ fun _ _ _ hp' => by cases hp'
    · intro m' j
      simp only [hooked, goto, hp, installed_setOriginal]
    · intro m' hm' j hj
      by_cases hm : m = m'
      · subst hm
        simp only [goto, setOriginal, Function.update_self]
        rw [h.called m j hj]
        simp only [hooked, hp, hi]
        rfl
      · simp only [goto, setOriginal, Function.update_of_ne (Ne.symm hm)]
        refine h.saved m' (Or.inl ?_) j hj
        rcases hm' with hm' | ⟨_, hbusy⟩
        · exact hm'
        · cases hbusy
          exact absurd rfl hm
    · intro m' install hbusy
      cases hbusy
      exact (installed_setOriginal m m _).trans hi

theorem Kept.remove (h : Kept l word s) (m : Site) : Kept l word (step l (.remove m) s) := by
  rw [step]
  split
  · exact h
  next hnot =>
    obtain ⟨hidle, hi⟩ := not_or.mp hnot
    have hp : s.place = .idle := not_not.mp hidle
    have hi : (s.hooking m).installed = true := by simpa using hi
    refine h.of_same rfl rfl ?_ ?_ ?_ fun _ _ _ hp' => by cases hp'
    · intro m' j
      simp only [hooked, goto, hp]
    · intro m' hm' j hj
      refine h.saved m' (Or.inl ?_) j hj
      rcases hm' with hm' | ⟨_, hbusy⟩
      · exact hm'
      · cases hbusy
        refine h.shown m 0 (by cases m <;> decide) ?_
        simp only [hooked, hp, hi]
    · intro m' install hbusy
      cases hbusy
      exact hi

/-- The vtable can be written to now. -/
theorem Kept.unprotected (h : Kept l word s) {m : Site} {install : Bool}
    (hp : s.place = .unprotect m install) :
    Kept l word ((s.setPages l m true).goto (.store m install 0)) := by
  have hbusy : s.place.busy = some (m, install) := by
    rw [hp]
    rfl
  have hi := h.installed m install hbusy
  refine h.of_same rfl rfl ?_ ?_ ?_ ?_
  · intro m' j
    simp only [hooked, goto, setPages, hp]
    split
    next hm =>
      subst hm
      exact hi.symm
    next => rfl
  · intro m' hm' j hj
    refine h.saved m' (hm'.imp_right ?_) j hj
    rintro ⟨_, hbusy'⟩
    cases hbusy'
    exact ⟨install, hbusy⟩
  · intro m' install' hbusy'
    cases hbusy'
    exact hi
  · intro m' install' i hp'
    cases hp'
    exact ⟨by cases m <;> decide, fun n hn => if_pos hn⟩

/-- The vtable could not be written to, and `Install` gives up. -/
theorem Kept.refused (h : Kept l word s) {m : Site} (hp : s.place = .unprotect m true) :
    Kept l word ((s.setInstalled m false).goto .idle) := by
  have hi : (s.hooking m).installed = false := h.installed m true (by rw [hp]; rfl)
  refine h.of_same rfl rfl ?_ ?_ (fun _ _ hbusy => by cases hbusy) fun _ _ _ hp' => by cases hp'
  · intro m' j
    simp only [hooked, goto, hp, installed_setInstalled]
    split
    next hm =>
      subst hm
      exact hi.symm
    next => rfl
  · intro m' hm' j hj
    rcases hm' with hm' | ⟨_, hbusy⟩
    · exact (congrFun (original_setInstalled m m' false) j).trans (h.saved m' (Or.inl hm') j hj)
    · cases hbusy

/-- All slots are written. -/
theorem Kept.protected (h : Kept l word s) {m : Site} {install : Bool} (pages : Nat → Bool)
    (hp : s.place = .protect m install) :
    Kept l word ((({ s with writable := pages } : Image).setInstalled m install).goto .idle) := by
  refine h.of_same rfl rfl ?_ ?_ (fun _ _ hbusy => by cases hbusy) fun _ _ _ hp' => by cases hp'
  · intro m' j
    simp only [hooked, goto, hp, installed_setInstalled]
  · intro m' hm' j hj
    rcases hm' with hm' | ⟨_, hbusy⟩
    · refine (congrFun (original_setInstalled m m' install) j).trans ?_
      exact h.saved m' (Or.inl hm') j hj
    · cases hbusy

theorem afterStore_busy (m : Site) (install : Bool) (i : Nat) :
    (afterStore m install i).busy = some (m, install) := by
  rw [afterStore]
  split <;> rfl

/-- The hook or the original function is in one slot more. -/
theorem hooked_store {m : Site} {install : Bool} {i : Nat} (hp : s.place = .store m install i)
    {m' : Site} {j : Nat} (hj : j < m'.count) :
    (s.store l m install i).hooked m' j =
      if m = m' ∧ j = i then install else s.hooked m' j := by
  have hplace : (s.store l m install i).place = afterStore m install i := rfl
  have hinst : ((s.store l m install i).hooking m').installed = (s.hooking m').installed := rfl
  by_cases hm : m = m'
  · subst hm
    by_cases hmore : i + 1 < m.count
    · rw [afterStore, if_pos hmore] at hplace
      simp only [hooked, hplace, hp, if_true, true_and]
      rcases Nat.lt_trichotomy j i with hlt | heq | hgt
      · rw [if_pos (by omega), if_neg (by omega), if_pos hlt]
      · rw [if_pos (by omega), if_pos heq]
      · rw [if_neg (by omega), if_neg (by omega), if_neg (by omega)]
    · rw [afterStore, if_neg hmore] at hplace
      simp only [hooked, hplace, hp, if_true, true_and]
      rcases Nat.lt_or_ge j i with hlt | hge
      · rw [if_neg (by omega), if_pos hlt]
      · rw [if_pos (by omega)]
  · rw [if_neg fun h => hm h.1]
    by_cases hmore : i + 1 < m.count
    · rw [afterStore, if_pos hmore] at hplace
      simp only [hooked, hplace, hp, if_neg hm]
      exact hinst
    · rw [afterStore, if_neg hmore] at hplace
      simp only [hooked, hplace, hp, if_neg hm]
      exact hinst

/-- A slot is written. -/
theorem Kept.store (h : Kept l word s) {m : Site} {install : Bool} {i : Nat}
    (hp : s.place = .store m install i) : Kept l word (s.store l m install i) := by
  have hbusy : s.place.busy = some (m, install) := by
    rw [hp]
    rfl
  obtain ⟨hi, hpages⟩ := h.writable m install i hp
  have hvalue : s.value l m install i = if install then l.hook m i else word (l.slot m i) := by
    rw [value, h.saved m (Or.inr ⟨install, hbusy⟩) i hi]
  refine ⟨?_, ?_, ?_, ?_, ?_, ?_⟩
  · intro m' j hj
    rw [hooked_store hp hj]
    show Function.update s.word (l.slot m i) (s.value l m install i) (l.slot m' j) = _
    by_cases heq : l.slot m' j = l.slot m i
    · obtain ⟨rfl, rfl⟩ := Layout.slot_inj hj hi heq
      rw [Function.update_self, hvalue]
      simp only [and_self, if_true]
    · have hne : ¬(m = m' ∧ j = i) := fun hh => heq (by rw [hh.1, hh.2])
      simp only [if_neg hne, Function.update_of_ne heq]
      exact h.called m' j hj
  · intro m' hm' j hj
    refine h.saved m' ?_ j hj
    rcases hm' with hm' | ⟨_, hbusy'⟩
    · rcases Bool.or_eq_true_iff.mp hm' with hm' | hm'
      · exact Or.inl hm'
      · obtain ⟨-, hm'⟩ := Bool.and_eq_true_iff.mp hm'
        rw [eq_of_beq hm']
        exact Or.inr ⟨install, hbusy⟩
    · rw [Image.store, afterStore_busy] at hbusy'
      cases hbusy'
      exact Or.inr ⟨install, hbusy⟩
  · intro m' j hj hh
    rw [hooked_store hp hj] at hh
    show (s.shown m' || (install && m' == m)) = true
    by_cases hat : m = m' ∧ j = i
    · rw [if_pos hat] at hh
      rw [hh, hat.1, beq_self_eq_true, Bool.and_self, Bool.or_true]
    · rw [if_neg hat] at hh
      rw [h.shown m' j hj hh, Bool.true_or]
  · intro m' install' hbusy'
    rw [Image.store, afterStore_busy] at hbusy'
    cases hbusy'
    exact h.installed m install hbusy
  · intro m' install' i' hp'
    have hmore : afterStore m install i = .store m' install' i' := hp'
    rw [afterStore] at hmore
    split at hmore
    next hlt =>
      cases hmore
      exact ⟨hlt, hpages⟩
    next => cases hmore
  · intro a ha
    show Function.update s.word (l.slot m i) (s.value l m install i) a = _
    rw [Function.update_of_ne (ha m i hi)]
    exact h.rest a ha

theorem Kept.step (e : Event) (h : Kept l word s) (he : Succeeds e s) :
    Kept l word (step l e s) := by
  cases e with
  | install m present => exact h.install m present
  | remove m => exact h.remove m
  | goOn ok =>
    rw [Image.step, goOn]
    split
    next => exact h
    next m install hp =>
      cases ok with
      | true => exact h.unprotected hp
      | false =>
        cases install with
        | true => exact h.refused hp
        | false => exact absurd (he (by rw [hp]; rfl)) (by simp)
    next hp => exact h.store hp
    next m install hp =>
      cases ok with
      | true => exact h.protected _ hp
      | false => exact h.protected s.writable hp

theorem eq_of_removing {p : Place} (h : p.removing = true) : ∃ m, p = .unprotect m false := by
  cases p with
  | unprotect m install =>
    cases install with
    | true => cases h
    | false => exact ⟨m, rfl⟩
  | idle | store _ _ _ | protect _ _ => cases h

/-- Where `mprotect` fails, the hooks are left in the vtable. -/
theorem Kept.succeeds (h : Kept l word s)
    (hhook : ∀ m i, i < m.count → l.hook m i ≠ word (l.slot m i)) {e : Event}
    (he : Patched l word (Image.step l e s)) : Succeeds e s := by
  cases e with
  | install m present => exact trivial
  | remove m => exact trivial
  | goOn ok =>
    intro hr
    obtain ⟨m, hp⟩ := eq_of_removing hr
    cases ok with
    | true => rfl
    | false =>
      exfalso
      have hstep : Image.step l (.goOn false) s = (s.setInstalled m false).goto .idle := by
        simp only [Image.step, goOn, hp]
        rfl
      have hi : (s.hooking m).installed = true := h.installed m false (by rw [hp]; rfl)
      have hcount : 0 < m.count := by cases m <;> decide
      have hleft := h.called m 0 hcount
      simp only [hooked, hp, hi, if_true] at hleft
      rw [hstep] at he
      have hsettled := he.settled rfl m 0 hcount
      have hword : ((s.setInstalled m false).goto .idle).word = s.word := rfl
      have hinst : (((s.setInstalled m false).goto .idle).hooking m).installed = false :=
        (installed_setInstalled m m false).trans (if_pos rfl)
      rw [hword, hinst] at hsettled
      exact hhook m 0 hcount (hleft.symm.trans hsettled)

/-- **The vtables can be called through at every moment and `Remove` leaves nothing behind, exactly
where `mprotect` succeeds in `Remove`.** -/
theorem patched_iff (l : Layout) (word : Nat → BitVec 64) (writable : Nat → Bool)
    (hhook : ∀ m i, i < m.count → l.hook m i ≠ word (l.slot m i)) (es : List Event) :
    (∀ n, Patched l word (run (Image.step l) (es.take n) (init word writable))) ↔
      Meets Succeeds (Image.step l) es (init word writable) := by
  have hstart : Kept l word (init word writable) := .init writable
  rw [forall_take_iff es hstart.patched]
  refine Meets.iff_of_invariant (fun e _ he h => Kept.step e h he) (fun e s h => ?_) es hstart
  exact ⟨h.succeeds hhook, fun he => (Kept.step e h he).patched⟩

/-- Two vtables on one page. -/
def onePage : Layout where
  pageBits := 12
  vtable
    | .input => 0x1000
    | .pose => 0x1040
  hook
    | .input, i => 0x7000 + BitVec.ofNat 64 (16 * i)
    | .pose, _ => 0x8000
  pageBits_lt := by decide
  fits m := by cases m <;> decide
  apart i j hi hj := by
    simp only [Site.count] at hi hj
    show 0x1000 + 8 * (0 + i) ≠ 0x1040 + 8 * (1 + j)
    omega

/-- `Init` and `Cleanup`. -/
theorem patched_iff_onePage :
    let es : List Event := [.install .input true] ++ List.replicate 6 (.goOn true) ++
      [.install .pose true] ++ List.replicate 3 (.goOn true) ++ [.remove .input] ++
      List.replicate 6 (.goOn true) ++ [.remove .pose] ++ List.replicate 3 (.goOn true)
    ∀ n, Patched onePage (fun _ => 0x4000)
      (run (Image.step onePage) (es.take n) (init (fun _ => 0x4000) fun _ => false)) := by
  intro es
  refine (patched_iff onePage _ _ ?_ es).mpr (by decide)
  intro m i hi
  cases m with
  | input =>
    have hcases : i = 0 ∨ i = 1 ∨ i = 2 ∨ i = 3 := by
      simp only [Site.count] at hi
      omega
    rcases hcases with rfl | rfl | rfl | rfl <;> decide
  | pose =>
    show (0x8000 : BitVec 64) ≠ 0x4000
    decide

end Image

end Rebocap.Hooks
