import Rebocap.Lib.Escape
import Rebocap.Lib.Simulation

/-!
# Commands of a shell

`shlex.quote`, and a reader of the simple commands in a shell script. It reads comments, words with
both kinds of quotes, the parameters `$name` and `${name:-other}` in double quotes, redirections of
the output and the operators between commands. It stops at an expansion of any other kind. Keywords
are words to it.

* `reads_quote` — a string that is quoted is read as it was
-/

namespace Lib.Shell

/-! ## Words -/

/-- A piece of a word. -/
inductive Part where
  | lit (c : Char)
  /-- `${name:-other}`. It is in quotes, so its value is not split. -/
  | var (name other : List Char)
deriving DecidableEq

abbrev Word := List Part

def lits (s : List Char) : Word := s.map .lit

/-- `$name` in double quotes, and what follows it. -/
def param (name rest : List Char) : Word := .var name [] :: lits rest

inductive Token where
  | word (w : Word)
  /-- `>`, with the descriptor in front of it. -/
  | redirect (fd : List Char)
  /-- An operator. One of two characters is two of them. -/
  | op (c : Char)
deriving DecidableEq

/-- Where the reader is. -/
inductive Mode where
  | between
  | comment
  /-- Digits, which are a descriptor if `>` follows. -/
  | number (n : List Char)
  | word (w : Word)
  | single (w : Word)
  | double (w : Word)
  /-- After `$`. -/
  | dollar (w : Word)
  | name (w : Word) (n : List Char)
  | braced (w : Word) (n : List Char)
  /-- After `${name:`. -/
  | colon (w : Word) (n : List Char)
  | other (w : Word) (n o : List Char)
  | stuck
deriving DecidableEq

def operators : List Char := ['\n', ';', '&', '|']

/-- What has a meaning in a word that is not quoted. -/
def special : List Char :=
  ['$', '`', '\\', '*', '?', ']', '~', '{', '}', '!', '(', ')', '<']

def nameStart (c : Char) : Bool := c.isAlpha || c == '_'

def nameChar (c : Char) : Bool := c.isAlphanum || c == '_'

/-- A character of a word that is not quoted. -/
def inWord (w : Word) (c : Char) : Mode × List Token :=
  if c = ' ' ∨ c = '\t' then (.between, [.word w])
  else if c ∈ operators then (.between, [.word w, .op c])
  else if c = '>' then (.between, [.word w, .redirect []])
  else if c = '\'' then (.single w, [])
  else if c = '"' then (.double w, [])
  else if c ∈ special then (.stuck, [])
  else (.word (w ++ [.lit c]), [])

def inDouble (w : Word) (c : Char) : Mode :=
  if c = '"' then .word w
  else if c = '$' then .dollar w
  else if c = '`' ∨ c = '\\' then .stuck
  else .double (w ++ [.lit c])

def next (m : Mode) (c : Char) : Mode × List Token :=
  match m with
  | .between =>
    if c = ' ' ∨ c = '\t' then (.between, [])
    else if c ∈ operators then (.between, [.op c])
    else if c = '>' then (.between, [.redirect []])
    else if c = '#' then (.comment, [])
    else if c.isDigit then (.number [c], [])
    else if c = ']' then (.word [.lit c], []) -- no pattern without a bracket before it
    else inWord [] c
  | .comment => if c = '\n' then (.between, [.op c]) else (.comment, [])
  | .number n =>
    if c.isDigit then (.number (n ++ [c]), [])
    else if c = '>' then (.between, [.redirect n])
    else inWord (lits n) c
  | .word w => inWord w c
  | .single w => if c = '\'' then (.word w, []) else (.single (w ++ [.lit c]), [])
  | .double w => (inDouble w c, [])
  | .dollar w =>
    if c = '{' then (.braced w [], [])
    else if nameStart c then (.name w [c], [])
    else (.stuck, [])
  | .name w n =>
    if nameChar c then (.name w (n ++ [c]), []) else (inDouble (w ++ [.var n []]) c, [])
  | .braced w n =>
    if (if n = [] then nameStart c else nameChar c) then (.braced w (n ++ [c]), [])
    else if n = [] then (.stuck, [])
    else if c = ':' then (.colon w n, [])
    else if c = '}' then (.double (w ++ [.var n []]), [])
    else (.stuck, [])
  | .colon w n => if c = '-' then (.other w n [], []) else (.stuck, [])
  | .other w n o =>
    if c = '}' then (.double (w ++ [.var n o]), [])
    else if c ∈ ['$', '`', '\\', '"', '\'', '{'] then (.stuck, [])
    else (.other w n (o ++ [c]), [])
  | .stuck => (.stuck, [])

def step (c : Char) (m : Mode) : Mode := (next m c).1

def shown (c : Char) (m : Mode) : List Token := (next m c).2

/-- The tokens of a text whose lines are complete. -/
def tokens (text : List Char) : List Token := trace shown step text .between

/-! ## Commands -/

/-- A redirection of the output: `fd>&target` if it is `dup`. -/
structure Redirect (α : Type) where
  fd : List Char
  dup : Bool
  target : α
deriving DecidableEq

/-- A simple command. -/
structure Command where
  words : List Word := []
  redirects : List (Redirect Word) := []
deriving DecidableEq

/-- The simple commands, up to where the reader stops. `c` is what there is of the first one. -/
def commands (c : Command) : List Token → List Command
  | [] => []
  | .word w :: ts => commands { c with words := c.words ++ [w] } ts
  | .redirect fd :: .op '&' :: .word w :: ts =>
    commands { c with redirects := c.redirects ++ [⟨fd, true, w⟩] } ts
  | .redirect fd :: .word w :: ts =>
    commands { c with redirects := c.redirects ++ [⟨fd, false, w⟩] } ts
  | .redirect _ :: _ => []
  | .op _ :: ts => if c = {} then commands {} ts else c :: commands {} ts

/-- The variables. One that is not set is empty. -/
abbrev Env := List Char → List Char

/-- `${name:-other}`. -/
def Env.orElse (env : Env) (name other : List Char) : List Char :=
  if env name = [] then other else env name

def Part.expand (env : Env) : Part → List Char
  | .lit c => [c]
  | .var name other => env.orElse name other

def expand (env : Env) (w : Word) : List Char := w.flatMap (Part.expand env)

/-- What is before the first `=`, and what is behind it. -/
def splitAssignment : Word → Option (List Char × Word)
  | .lit c :: w =>
    if c = '=' then some ([], w)
    else if nameChar c then (splitAssignment w).map fun p => (c :: p.1, p.2)
    else none
  | _ => none

/-- `name=value`. -/
def assignment (w : Word) : Option (List Char × Word) :=
  match splitAssignment w with
  | some (c :: n, v) => if nameStart c then some (c :: n, v) else none
  | _ => none

/-- Sets a variable in `env'` to a value that is expanded in `env`. -/
def assign (env env' : Env) (w : Word) : Env :=
  match assignment w with
  | some (n, v) => Function.update env' n (expand env v)
  | none => env'

/-- A command that is run: with which variables, arguments and redirections. -/
structure Ran where
  env : Env
  args : List (List Char)
  redirects : List (Redirect (List Char))

/-- What a simple command does: it sets variables, or it is run. -/
def Command.eval (env : Env) (c : Command) : Env × Option Ran :=
  let isAssignment (w : Word) := (assignment w).isSome
  let set := (c.words.takeWhile isAssignment).foldl (fun env w => assign env env w) env
  match c.words.dropWhile isAssignment with
  | [] => (set, none)
  | w :: ws =>
    if w = lits "export".toList then (ws.foldl (assign env) env, none)
    else (env, some ⟨set, (w :: ws).map (expand env),
      c.redirects.map fun r => ⟨r.fd, r.dup, expand env r.target⟩⟩)

/-- The commands that a script runs if every command runs that is in it. -/
def ran (env : Env) : List Command → List Ran
  | [] => []
  | c :: cs => (c.eval env).2.toList ++ ran (c.eval env).1 cs

/-! ### What is run -/

theorem expand_lits (env : Env) (s : List Char) : expand env (lits s) = s := by
  rw [expand, lits, List.flatMap_map]
  exact List.flatMap_pure_eq_map id s |>.trans (List.map_id s)

theorem expand_param (env : Env) (name rest : List Char) :
    expand env (param name rest) = env name ++ rest := by
  have hvalue : Env.orElse env name [] = env name := by
    unfold Env.orElse
    split
    next hempty => exact hempty.symm
    next => rfl
  show Env.orElse env name [] ++ expand env (lits rest) = _
  rw [hvalue, expand_lits]

theorem expand_var (env : Env) (name other : List Char) :
    expand env [.var name other] = Env.orElse env name other := List.append_nil _

/-- A command that sets nothing is run. -/
theorem eval_of_not_assignment {env : Env} {w : Word} {ws : List Word}
    {redirects : List (Redirect Word)} (hw : assignment w = none)
    (hexport : w ≠ lits "export".toList) :
    Command.eval env { words := w :: ws, redirects := redirects } =
      (env, some ⟨env, (w :: ws).map (expand env),
        redirects.map fun r => ⟨r.fd, r.dup, expand env r.target⟩⟩) := by
  simp only [Command.eval, List.takeWhile, List.dropWhile, hw, Option.isSome_none,
    if_neg hexport, List.foldl_nil]

/-! ## Quoting -/

/-- What `shlex.quote` need not quote. -/
def safe (c : Char) : Bool :=
  nameChar c || c ∈ ['@', '%', '+', '=', ':', ',', '.', '/', '-']

/-- `shlex.quote`. -/
def quote (s : List Char) : List Char :=
  if s = [] then ['\'', '\'']
  else if s.all safe then s
  else '\'' :: replace s '\'' ['\'', '"', '\'', '"', '\''] ++ ['\'']

/-! ## What is quoted is read -/

/-- The reader comes from one mode to another one in the middle of a word. -/
def Reads (text : List Char) (m m' : Mode) : Prop :=
  run step text m = m' ∧ trace shown step text m = []

theorem Reads.nil (m : Mode) : Reads [] m m := ⟨rfl, rfl⟩

theorem Reads.cons {c : Char} {text : List Char} {m m' m'' : Mode} (h : next m c = (m', []))
    (ht : Reads text m' m'') : Reads (c :: text) m m'' := by
  obtain ⟨hrun, htrace⟩ := ht
  have hstep : step c m = m' := congrArg Prod.fst h
  have hshown : shown c m = [] := congrArg Prod.snd h
  exact ⟨by rw [run_cons, hstep, hrun], by rw [trace_cons, hstep, hshown, htrace]; rfl⟩

theorem Reads.append {s t : List Char} {m m' m'' : Mode} (hs : Reads s m m')
    (ht : Reads t m' m'') : Reads (s ++ t) m m'' := by
  obtain ⟨rfl, hs⟩ := hs
  obtain ⟨rfl, ht⟩ := ht
  exact ⟨run_append step s t m, by rw [trace_append, hs, ht]; rfl⟩

/-- What is read in the middle of a word shows nothing. -/
theorem Reads.trace_append {text rest : List Char} {m m' : Mode} (h : Reads text m m') :
    trace shown step (text ++ rest) m = trace shown step rest m' := by
  rw [Lib.trace_append, h.1, h.2, List.nil_append]

theorem lits_cons (c : Char) (s : List Char) : lits (c :: s) = .lit c :: lits s := rfl

theorem append_lits_cons (w : Word) (c : Char) (s : List Char) :
    w ++ lits (c :: s) = w ++ [.lit c] ++ lits s := by
  rw [lits_cons, List.append_cons]

/-- What is safe has no meaning in a word. -/
theorem not_special_of_safe {c : Char} (hc : safe c = true) : ¬(c = ' ' ∨ c = '\t') ∧
    c ∉ operators ∧ c ≠ '>' ∧ c ≠ '\'' ∧ c ≠ '"' ∧ c ∉ special := by
  have hne : ∀ d : Char, safe d = false → c ≠ d := by
    rintro d hd rfl
    rw [hc] at hd
    cases hd
  have hnot : ∀ l : List Char, (l.any safe) = false → c ∉ l := by
    intro l hl hmem
    rw [List.any_eq_true.mpr ⟨c, hmem, hc⟩] at hl
    cases hl
  exact ⟨not_or.mpr ⟨hne ' ' rfl, hne '\t' rfl⟩, hnot operators rfl, hne '>' rfl, hne '\'' rfl,
    hne '"' rfl, hnot special rfl⟩

theorem next_safe (w : Word) {c : Char} (hc : safe c = true) :
    next (.word w) c = (.word (w ++ [.lit c]), []) := by
  obtain ⟨hblank, hop, hgreater, hsingle, hdouble, hspecial⟩ := not_special_of_safe hc
  show inWord w c = _
  rw [inWord, if_neg hblank, if_neg hop, if_neg hgreater, if_neg hsingle, if_neg hdouble,
    if_neg hspecial]

/-- A string that needs no quotes. -/
theorem reads_safe : ∀ (s : List Char) (w : Word), s.all safe = true →
    Reads s (.word w) (.word (w ++ lits s)) := by
  intro s
  induction s with
  | nil =>
    intro w _
    rw [show lits [] = [] from rfl, List.append_nil]
    exact .nil _
  | cons c s ih =>
    intro w hs
    rw [List.all_cons, Bool.and_eq_true] at hs
    rw [append_lits_cons]
    exact .cons (next_safe w hs.1) (ih _ hs.2)

/-- A quote leaves the quotes, is quoted itself, and enters them again. -/
theorem reads_single_quote (w : Word) :
    Reads ['\'', '"', '\'', '"', '\''] (.single w) (.single (w ++ [.lit '\''])) :=
  ⟨rfl, rfl⟩

theorem reads_single : ∀ (s : List Char) (w : Word),
    Reads (replace s '\'' ['\'', '"', '\'', '"', '\'']) (.single w) (.single (w ++ lits s)) := by
  intro s
  induction s with
  | nil =>
    intro w
    rw [show lits [] = [] from rfl, List.append_nil]
    exact .nil _
  | cons c s ih =>
    intro w
    rw [append_lits_cons, replace, List.flatMap_cons]
    refine Reads.append ?_ (ih _)
    by_cases hc : c = '\''
    · rw [if_pos hc, hc]
      exact reads_single_quote w
    · rw [if_neg hc]
      exact .cons (if_neg hc) (.nil _)

/-- **A string that is quoted is read as it was**, whatever is in it. -/
theorem reads_quote (s : List Char) (w : Word) :
    Reads (quote s) (.word w) (.word (w ++ lits s)) := by
  unfold quote
  by_cases hnil : s = []
  · rw [if_pos hnil, hnil, show lits [] = [] from rfl, List.append_nil]
    exact ⟨rfl, rfl⟩
  rw [if_neg hnil]
  by_cases hsafe : s.all safe = true
  · rw [if_pos hsafe]
    exact reads_safe s w hsafe
  · rw [if_neg hsafe]
    exact .append (.cons rfl (reads_single s w)) (.cons rfl (.nil _))

/-- Both kinds of quotes. -/
example : quote "it's a \"path\"".toList = "'it'\"'\"'s a \"path\"'".toList := by decide

end Lib.Shell
