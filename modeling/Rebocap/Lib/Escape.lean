import Mathlib.Data.List.Nodup

/-!
# Escapes

Characters that are escaped by putting an escape character in front of them, as whole-string
replacements write them and as a reader takes them back.

* `foldl_replace` — replacements one after the other, the escape character first, escape every
  character once
* `escape_comm` — escaping for one layer and then for another one, in either order
* `unescape_escape` — a reader gives back what was escaped
-/

namespace Lib

variable {α : Type} [DecidableEq α]

/-! ## Replacing -/

/-- `str.replace` for an `old` of one character. -/
def replace (s : List α) (old : α) (new : List α) : List α :=
  s.flatMap fun c => if c = old then new else [c]

/-- The special characters get an escape character in front of them. -/
def escape (esc : α) (special s : List α) : List α :=
  s.flatMap fun c => if c ∈ special then [esc, c] else [c]

section Escape

variable {esc : α} {special : List α}

@[simp] theorem escape_nil : escape esc special [] = [] := rfl

theorem escape_cons_of_mem {c : α} (hc : c ∈ special) (s : List α) :
    escape esc special (c :: s) = esc :: c :: escape esc special s := by
  simp [escape, hc]

theorem escape_cons_of_not_mem {c : α} (hc : c ∉ special) (s : List α) :
    escape esc special (c :: s) = c :: escape esc special s := by
  simp [escape, hc]

/-- A character of the escaped string is the escape character or one of the string. -/
theorem mem_of_mem_escape {c : α} {s : List α} (hc : c ∈ escape esc special s) :
    c = esc ∨ c ∈ s := by
  obtain ⟨d, hd, hcd⟩ := List.mem_flatMap.mp hc
  split at hcd
  · rcases List.mem_cons.mp hcd with rfl | hcd
    · exact .inl rfl
    · exact .inr (List.mem_singleton.mp hcd ▸ hd)
  · exact .inr (List.mem_singleton.mp hcd ▸ hd)

end Escape

theorem replace_eq_escape (esc old : α) (s : List α) :
    replace s old [esc, old] = escape esc [old] s := by
  refine List.flatMap_congr fun c _ => ?_
  by_cases hc : c = old <;> simp [hc]

/-- One more character is escaped. The escape characters that are there stay as they are. -/
theorem replace_escape {esc old : α} {special : List α} (hesc : esc ≠ old) (hold : old ∉ special)
    (s : List α) :
    replace (escape esc special s) old [esc, old] = escape esc (special ++ [old]) s := by
  rw [replace, escape, List.flatMap_assoc]
  refine List.flatMap_congr fun c _ => ?_
  by_cases hc : c ∈ special
  · have hne : c ≠ old := fun h => hold (h ▸ hc)
    simp [hc, hesc, hne]
  · by_cases hco : c = old
    · simp [hco, hold]
    · simp [hc, hco]

theorem foldl_replace_escape {esc : α} (s : List α) :
    ∀ (rest : List α) {special : List α}, esc ∉ rest → (special ++ rest).Nodup →
      rest.foldl (fun s ch => replace s ch [esc, ch]) (escape esc special s) =
        escape esc (special ++ rest) s := by
  intro rest
  induction rest with
  | nil =>
    intro special _ _
    rw [List.foldl_nil, List.append_nil]
  | cons ch rest ih =>
    intro special hesc hnodup
    rw [List.mem_cons, not_or] at hesc
    rw [List.append_cons] at hnodup ⊢
    have hch : ch ∉ special := by
      have hfirst := hnodup.of_append_left
      rw [List.nodup_append] at hfirst
      exact fun h => hfirst.2.2 ch h ch (List.mem_singleton_self ch) rfl
    rw [List.foldl_cons, replace_escape hesc.1 hch]
    exact ih hesc.2 hnodup

/-- **Replacements one after the other**, the escape character first, escape every character
once. -/
theorem foldl_replace {esc : α} {rest : List α} (h : (esc :: rest).Nodup) (s : List α) :
    (esc :: rest).foldl (fun s ch => replace s ch [esc, ch]) s = escape esc (esc :: rest) s := by
  rw [List.foldl_cons, replace_eq_escape]
  exact foldl_replace_escape s rest (List.nodup_cons.mp h).1 h

/-- **Two layers can be written in either order**, if the one that doubles its escape character
leaves the characters of the other one alone. -/
theorem escape_comm {a b : α} {special : List α} (hab : a ≠ b) (hb : b ∉ special) (s : List α) :
    escape a special (escape b [b] s) = escape b [b] (escape a special s) := by
  simp only [escape, List.flatMap_assoc]
  refine List.flatMap_congr fun c _ => ?_
  by_cases hc : c = b
  · simp [hc, hb]
  · by_cases hs : c ∈ special
    · simp [hc, hs, hab]
    · simp [hc, hs]

/-! ## Reading -/

/-- Takes back the escapes that `decode` knows. -/
def unescape (esc : α) (decode : α → Option α) : List α → Option (List α)
  | [] => some []
  | [c] => if c = esc then none else some [c]
  | c :: d :: rest =>
    if c = esc then do
      let d ← decode d
      let rest ← unescape esc decode rest
      return d :: rest
    else (unescape esc decode (d :: rest)).map (c :: ·)

section Unescape

variable {esc : α} {decode : α → Option α}

theorem unescape_cons {c : α} (hc : c ≠ esc) (rest : List α) :
    unescape esc decode (c :: rest) = (unescape esc decode rest).map (c :: ·) := by
  cases rest with
  | nil => simp [unescape, hc]
  | cons d rest => rw [unescape, if_neg hc]

theorem unescape_escaped {c : α} (hc : decode c = some c) (rest : List α) :
    unescape esc decode (esc :: c :: rest) = (unescape esc decode rest).map (c :: ·) := by
  rw [unescape, if_pos rfl, hc]
  cases unescape esc decode rest <;> rfl

/-- **A reader gives back what was escaped**, if the escape character itself was. -/
theorem unescape_escape {special : List α} (hesc : esc ∈ special)
    (hdecode : ∀ c ∈ special, decode c = some c) :
    ∀ s : List α, unescape esc decode (escape esc special s) = some s := by
  intro s
  induction s with
  | nil => rfl
  | cons c s ih =>
    by_cases hc : c ∈ special
    · rw [escape_cons_of_mem hc, unescape_escaped (hdecode c hc), ih, Option.map_some]
    · have hne : c ≠ esc := fun h => hc (h ▸ hesc)
      rw [escape_cons_of_not_mem hc, unescape_cons hne, ih, Option.map_some]

end Unescape

end Lib
