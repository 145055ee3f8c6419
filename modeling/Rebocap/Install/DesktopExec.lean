import Rebocap.Lib.Escape

/-!
# The `Exec` key of the launcher

`desktop_exec_arg`, which quotes the path of the launcher for a desktop entry, and a reader of
such entries. A value is written in three layers, and the reader takes them off from the outside:
the escapes of a string value, the field codes and the quotes.

* `desktopExecArg_eq` — the layers of a quoted argument
* `readExec_desktop` — a reader of the entry gets the one argument
-/

namespace Rebocap.Install

open Lib

/-! ## Writing -/

/-- The characters that are escaped in a quoted argument. -/
def quotedSpecial : List Char := ['\\', '"', '`', '$']

/-- Quotes one argument for a desktop entry's `Exec` key. -/
def desktopExecArg (arg : List Char) : List Char :=
  let arg := quotedSpecial.foldl (fun arg ch => replace arg ch ['\\', ch]) arg
  replace (replace ('"' :: arg ++ ['"']) '\\' ['\\', '\\']) '%' ['%', '%']

/-- `DESKTOP`, formatted. -/
def desktop (launcher icon : List Char) : List Char :=
  let lines := ["[Desktop Entry]".toList, "Type=Application".toList, "Name=Rebocap".toList,
    "Comment=Rebocap motion capture (Wine) with SteamVR bridge".toList,
    "Exec=".toList ++ launcher, "Icon=".toList ++ icon, "Categories=Game;Utility;".toList]
  lines.flatMap fun line => line ++ ['\n']

/-! ## Reading -/

/-- The value of a key: what is left of the first line that begins with it. -/
def valueOf (key text : List Char) : Option (List Char) :=
  (text.splitOn '\n').findSome? fun line =>
    if (key ++ ['=']).isPrefixOf line then some (line.drop (key.length + 1)) else none

/-- The escapes of a string value. -/
def stringEscape : Char → Option Char
  | 's' => some ' '
  | 'n' => some '\n'
  | 't' => some '\t'
  | 'r' => some '\r'
  | '\\' => some '\\'
  | _ => none

/-- The field codes. There is none but the percent sign. -/
def fieldCode : Char → Option Char
  | '%' => some '%'
  | _ => none

/-- The characters that only a quoted argument has. -/
def reserved : List Char :=
  [' ', '\t', '\n', '"', '\'', '\\', '>', '<', '~', '|', '&', ';', '$', '*', '?', '#', '(', ')',
    '`']

/-- Where a reader of arguments is. -/
inductive Mode where
  | between
  | word (s : List Char)
  | quoted (s : List Char)
  /-- After a backslash in quotes. -/
  | escaped (s : List Char)
  /-- After the closing quotes. -/
  | closed (s : List Char)

structure ArgReader where
  /-- The arguments that are complete. -/
  args : List (List Char)
  mode : Mode

namespace ArgReader

def step (r : ArgReader) (c : Char) : Option ArgReader :=
  match r.mode with
  | .between =>
    if c = ' ' then some r
    else if c = '"' then some { r with mode := .quoted [] }
    else if c ∈ reserved then none
    else some { r with mode := .word [c] }
  | .word s =>
    if c = ' ' then some ⟨r.args ++ [s], .between⟩
    else if c ∈ reserved then none
    else some { r with mode := .word (s ++ [c]) }
  | .quoted s =>
    if c = '"' then some { r with mode := .closed s }
    else if c = '\\' then some { r with mode := .escaped s }
    else if c ∈ quotedSpecial then none
    else some { r with mode := .quoted (s ++ [c]) }
  | .escaped s =>
    if c ∈ quotedSpecial then some { r with mode := .quoted (s ++ [c]) } else none
  | .closed s => if c = ' ' then some ⟨r.args ++ [s], .between⟩ else none

def finish (r : ArgReader) : Option (List (List Char)) :=
  match r.mode with
  | .between => some r.args
  | .word s | .closed s => some (r.args ++ [s])
  | .quoted _ | .escaped _ => none

end ArgReader

def readArgs (s : List Char) : Option (List (List Char)) := do
  let r ← s.foldlM ArgReader.step ⟨[], .between⟩
  r.finish

/-- The arguments of an `Exec` value. A value is one line. -/
def readExec (value : List Char) : Option (List (List Char)) :=
  if '\n' ∈ value then none
  else do
    let s ← unescape '\\' stringEscape value
    let s ← unescape '%' fieldCode s
    readArgs s

/-- The same with the quotes undone before the field codes. There are readers of both kinds. -/
def readExecUnquoted (value : List Char) : Option (List (List Char)) :=
  if '\n' ∈ value then none
  else do
    let s ← unescape '\\' stringEscape value
    let args ← readArgs s
    args.mapM (unescape '%' fieldCode)

/-! ## Layers -/

/-- **The layers of a quoted argument**, from the inside: its special characters are escaped, it
is put in quotes, and percent signs and backslashes are doubled. -/
theorem desktopExecArg_eq (arg : List Char) :
    desktopExecArg arg =
      escape '\\' ['\\'] (escape '%' ['%'] ('"' :: escape '\\' quotedSpecial arg ++ ['"'])) := by
  have hspecial : quotedSpecial.Nodup := by decide
  unfold desktopExecArg
  rw [replace_eq_escape, replace_eq_escape, escape_comm (by decide) (by decide)]
  exact congrArg (fun s => escape '\\' ['\\'] (escape '%' ['%'] ('"' :: s ++ ['"'])))
    (foldl_replace hspecial arg)

theorem newline_not_mem {arg : List Char} (h : '\n' ∉ arg) : '\n' ∉ desktopExecArg arg := by
  have hescape : ∀ {esc : Char} {special s : List Char}, '\n' ≠ esc → '\n' ∉ s →
      '\n' ∉ escape esc special s :=
    fun hesc hs hmem => (mem_of_mem_escape hmem).elim hesc hs
  rw [desktopExecArg_eq]
  refine hescape (by decide) (hescape (by decide) ?_)
  simpa using hescape (by decide) h

theorem step_escaped (args : List (List Char)) (s : List Char) {c : Char}
    (hc : c ∈ quotedSpecial) :
    ArgReader.step ⟨args, .escaped s⟩ c = some ⟨args, .quoted (s ++ [c])⟩ := if_pos hc

theorem step_quoted (args : List (List Char)) (s : List Char) {c : Char}
    (hc : c ∉ quotedSpecial) :
    ArgReader.step ⟨args, .quoted s⟩ c = some ⟨args, .quoted (s ++ [c])⟩ := by
  have hquote : c ≠ '"' := fun h => hc (h ▸ by decide)
  have hbackslash : c ≠ '\\' := fun h => hc (h ▸ by decide)
  simp [ArgReader.step, hquote, hbackslash, hc]

/-- In quotes the reader takes back what was escaped. -/
theorem foldlM_escape (args : List (List Char)) : ∀ (arg s rest : List Char),
    (escape '\\' quotedSpecial arg ++ rest).foldlM ArgReader.step ⟨args, .quoted s⟩ =
      rest.foldlM ArgReader.step ⟨args, .quoted (s ++ arg)⟩ := by
  intro arg
  induction arg with
  | nil =>
    intro s rest
    rw [List.append_nil, escape_nil, List.nil_append]
  | cons c arg ih =>
    intro s rest
    rw [List.append_cons]
    by_cases hc : c ∈ quotedSpecial
    · rw [escape_cons_of_mem hc, List.cons_append, List.cons_append, List.foldlM_cons]
      show List.foldlM ArgReader.step ⟨args, .escaped s⟩ (c :: _) = _
      rw [List.foldlM_cons, step_escaped args s hc]
      exact ih (s ++ [c]) rest
    · rw [escape_cons_of_not_mem hc, List.cons_append, List.foldlM_cons, step_quoted args s hc]
      exact ih (s ++ [c]) rest

theorem readArgs_quoted (arg : List Char) :
    readArgs ('"' :: escape '\\' quotedSpecial arg ++ ['"']) = some [arg] := by
  unfold readArgs
  rw [List.cons_append, List.foldlM_cons]
  show List.foldlM ArgReader.step ⟨[], .quoted []⟩ _ >>= _ = _
  rw [foldlM_escape]
  rfl

/-- The lines of an entry are tried one after the other. -/
theorem valueOf_cons {line : List Char} (h : '\n' ∉ line) (key rest : List Char) :
    valueOf key (line ++ '\n' :: rest) = if (key ++ ['=']).isPrefixOf line then
      some (line.drop (key.length + 1)) else valueOf key rest := by
  unfold valueOf
  rw [List.splitOn_append_cons_self_of_not_mem h, List.findSome?_cons]
  split <;> simp_all

theorem valueOf_desktop {launcher : List Char} (h : '\n' ∉ launcher) (icon : List Char) :
    valueOf "Exec".toList (desktop launcher icon) = some launcher := by
  have hexec : '\n' ∉ "Exec=".toList ++ launcher := by simpa using h
  unfold desktop
  simp only [List.flatMap_cons, List.append_assoc, List.singleton_append]
  rw [valueOf_cons (by decide), if_neg (by decide), valueOf_cons (by decide), if_neg (by decide),
    valueOf_cons (by decide), if_neg (by decide), valueOf_cons (by decide), if_neg (by decide)]
  rw [← List.append_assoc, valueOf_cons hexec]
  rfl

theorem stringEscape_backslash : ∀ c ∈ ['\\'], stringEscape c = some c := by
  simp [stringEscape]

theorem fieldCode_percent : ∀ c ∈ ['%'], fieldCode c = some c := by
  simp [fieldCode]

/-- **A reader of the entry gets the one argument** that was quoted. -/
theorem readExec_desktop (arg icon : List Char) (h : '\n' ∉ arg) :
    readExec (desktopExecArg arg) = some [arg] ∧
      valueOf "Exec".toList (desktop (desktopExecArg arg) icon) = some (desktopExecArg arg) := by
  refine ⟨?_, valueOf_desktop (newline_not_mem h) icon⟩
  rw [readExec, if_neg (newline_not_mem h), desktopExecArg_eq,
    unescape_escape (List.mem_singleton_self _) stringEscape_backslash]
  show (unescape '%' fieldCode (escape '%' ['%'] _) >>= readArgs) = _
  rw [unescape_escape (List.mem_singleton_self _) fieldCode_percent]
  exact readArgs_quoted arg

/-- A path with all the special characters, some of them twice. -/
theorem readExec_desktop_special :
    let arg := "/opt/100%/$a `b\\\"c\"\"/%%f\\".toList
    readExec (desktopExecArg arg) = some [arg] ∧
      valueOf "Exec".toList (desktop (desktopExecArg arg) []) = some (desktopExecArg arg) :=
  readExec_desktop _ [] (by decide)

/-- Percent signs that are doubled in the quotes are doubled in the argument. -/
theorem readExecUnquoted_desktopExecArg {arg : List Char} (h : '\n' ∉ arg) :
    readExecUnquoted (desktopExecArg arg) = some [arg] := by
  have hlayer : escape '%' ['%'] ('"' :: escape '\\' quotedSpecial arg ++ ['"']) =
      '"' :: escape '\\' quotedSpecial (escape '%' ['%'] arg) ++ ['"'] := by
    rw [escape_comm (by decide) (by decide)]
    simp [escape]
  rw [readExecUnquoted, if_neg (newline_not_mem h), desktopExecArg_eq,
    unescape_escape (List.mem_singleton_self _) stringEscape_backslash, hlayer]
  show (readArgs _ >>= List.mapM (unescape '%' fieldCode)) = _
  rw [readArgs_quoted]
  show List.mapM (unescape '%' fieldCode) [escape '%' ['%'] arg] = _
  rw [List.mapM_cons, unescape_escape (List.mem_singleton_self _) fieldCode_percent]
  rfl

end Rebocap.Install
