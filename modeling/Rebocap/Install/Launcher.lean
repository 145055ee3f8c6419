import Rebocap.Lib.Shell

/-!
# The launcher

`install.py` writes a shell script with the path of the installation in it, quoted by `shlex.quote`.
The script starts the bridge with the address and the port that the user has set.

* `launcher_starts` — whatever the path is, this is all that is run up to there
-/

namespace Rebocap.Install

open Lib Lib.Shell

/-! ## The script -/

/-- `DONGLE`. -/
def dongle : List Char :=
  "/dev/serial/by-id/usb-JXQ_Ltd__Co_RebornBodyCap_RebornRX-if00".toList

def unlines (lines : List String) : List Char := lines.flatMap fun line => line.toList ++ ['\n']

/-- `LAUNCHER` before the path. -/
def launcherHead : List Char :=
  unlines [
    "#!/bin/bash",
    "# Starts the pipe<->TCP bridge and the Rebocap app. Generated by install.py.",
    "#   BRIDGE_BIND=0.0.0.0 rebocap     let a driver on another machine connect (bridge_host on that side)"] ++
  "home=".toList

/-- `LAUNCHER` after the line with the path. -/
def launcherTail : List Char :=
  "export WINEPREFIX=\"$home/pfx\" WINEDEBUG=\"$\x7bWINEDEBUG:--all\x7d\"\n".toList ++
  "[ -e ".toList ++ dongle ++ " ] || echo \"rebocap: dongle not found at ".toList ++ dongle ++
  ". Plug it in first\" >&2\n".toList ++
  unlines [
    "wine \"$home/bridge.exe\" \"$\x7bBRIDGE_BIND:-127.0.0.1\x7d\" \"$\x7bBRIDGE_PORT:-36850\x7d\" 2>\"$home/bridge.log\" &",
    "bridge=$!",
    "trap 'kill $bridge 2>/dev/null' EXIT",
    "# Without the bridge, SteamVR does not see the app, and the error is only in bridge.log.",
    "for _ in $(seq 20); do",
    "    grep -q '\\[bridge.*listening' \"$home/bridge.log\" 2>/dev/null && break",
    "    if grep -q '\\[bridge.*cannot listen' \"$home/bridge.log\" 2>/dev/null; then",
    "        msg=\"Rebocap: port $\x7bBRIDGE_PORT:-36850\x7d is already in use (another bridge.exe still running?). SteamVR will not connect until it is free. Once free, restart rebocap.\"",
    "        echo \"$msg\" >&2",
    "        command -v notify-send >/dev/null && notify-send -u critical \"Rebocap\" \"$msg\"",
    "        break",
    "    fi",
    "    sleep 0.5",
    "done",
    "cd \"$home/app\" && wine rebocap.exe"]

/-- `LAUNCHER`, formatted. -/
def launcher (home : List Char) : List Char := launcherHead ++ home ++ '\n' :: launcherTail

/-! ## The commands in it -/

/-- Three comments, and the beginning of the line with the path. -/
theorem reads_launcherHead : run step launcherHead .between = .word (lits "home=".toList) ∧
    trace shown step launcherHead .between = [.op '\n', .op '\n', .op '\n'] := by
  unfold launcherHead unlines
  simp only [List.flatMap_cons, List.flatMap_nil]
  -- the kernel is slow in taking strings apart
  repeat rw [String.toList_ofList]
  decide +kernel

/-- The commands after the line with the path, up to `bridge=$!`. -/
theorem commands_launcherTail : commands {} (tokens launcherTail) = [
    { words := [lits "export".toList,
        lits "WINEPREFIX=".toList ++ param "home".toList "/pfx".toList,
        lits "WINEDEBUG=".toList ++ [.var "WINEDEBUG".toList "-all".toList]] },
    { words := [lits "[".toList, lits "-e".toList, lits dongle, lits "]".toList] },
    { words := [lits "echo".toList,
        lits ("rebocap: dongle not found at ".toList ++ dongle ++ ". Plug it in first".toList)]
      redirects := [⟨[], true, lits "2".toList⟩] },
    { words := [lits "wine".toList, param "home".toList "/bridge.exe".toList,
        [.var "BRIDGE_BIND".toList "127.0.0.1".toList],
        [.var "BRIDGE_PORT".toList "36850".toList]]
      redirects := [⟨"2".toList, false, param "home".toList "/bridge.log".toList⟩] }] := by
  unfold launcherTail dongle unlines
  simp only [List.flatMap_cons, List.flatMap_nil]
  repeat rw [String.toList_ofList]
  decide +kernel

/-- The line with the path is one word, and the rest of the script is read as it stands. -/
theorem commands_launcher (home : List Char) : commands {} (tokens (launcher (quote home))) =
    { words := [lits "home=".toList ++ lits home] } :: commands {} (tokens launcherTail) := by
  have hline : ∀ (w : Word) (rest : List Char),
      trace shown step ('\n' :: rest) (.word w) = .word w :: .op '\n' :: tokens rest :=
    fun _ _ => rfl
  rw [tokens, launcher, List.append_assoc, trace_append, reads_launcherHead.1,
    reads_launcherHead.2, (reads_quote home _).trace_append, hline]
  generalize tokens launcherTail = ts
  rfl

/-! ## What they do -/

/-- The variables once the script has set its own. -/
def launcherEnv (home : List Char) (env : Env) : Env :=
  Function.update
    (Function.update (Function.update env "home".toList home) "WINEPREFIX".toList
      (home ++ "/pfx".toList))
    "WINEDEBUG".toList (Env.orElse env "WINEDEBUG".toList "-all".toList)

theorem launcherEnv_home (home : List Char) (env : Env) :
    launcherEnv home env "home".toList = home := by
  unfold launcherEnv
  rw [Function.update_of_ne (by decide), Function.update_of_ne (by decide), Function.update_self]

/-- The other variables are as the user has set them. -/
theorem launcherEnv_of_not_mem {name : List Char} (home : List Char) (env : Env)
    (h : name ∉ ["home".toList, "WINEPREFIX".toList, "WINEDEBUG".toList]) :
    launcherEnv home env name = env name := by
  simp only [List.mem_cons, List.not_mem_nil, or_false, not_or] at h
  obtain ⟨hhome, hprefix, hdebug⟩ := h
  unfold launcherEnv
  rw [Function.update_of_ne hdebug, Function.update_of_ne hprefix, Function.update_of_ne hhome]

theorem eval_home (home : List Char) (env : Env) :
    Command.eval env { words := [lits "home=".toList ++ lits home] } =
      (Function.update env "home".toList home, none) := by
  have hassign : assignment (lits "home=".toList ++ lits home) = some ("home".toList, lits home) :=
    rfl
  simp only [Command.eval, List.takeWhile, List.dropWhile, hassign, Option.isSome_some,
    List.foldl_cons, List.foldl_nil, assign, expand_lits]

theorem eval_export (home : List Char) (env : Env) :
    Command.eval (Function.update env "home".toList home) { words := [lits "export".toList,
        lits "WINEPREFIX=".toList ++ param "home".toList "/pfx".toList,
        lits "WINEDEBUG=".toList ++ [.var "WINEDEBUG".toList "-all".toList]] } =
      (launcherEnv home env, none) := by
  have hexport : assignment (lits "export".toList) = none := rfl
  have hprefix : assignment (lits "WINEPREFIX=".toList ++ param "home".toList "/pfx".toList) =
      some ("WINEPREFIX".toList, param "home".toList "/pfx".toList) := rfl
  have hdebug : assignment (lits "WINEDEBUG=".toList ++ [.var "WINEDEBUG".toList "-all".toList]) =
      some ("WINEDEBUG".toList, [.var "WINEDEBUG".toList "-all".toList]) := rfl
  have hset : Env.orElse (Function.update env "home".toList home) "WINEDEBUG".toList "-all".toList =
      Env.orElse env "WINEDEBUG".toList "-all".toList := by
    rw [Env.orElse, Function.update_of_ne (by decide), Env.orElse]
  simp only [Command.eval, List.takeWhile, List.dropWhile, hexport, Option.isSome_none, if_true,
    List.foldl_cons, List.foldl_nil, assign, hprefix, hdebug, expand_param, expand_var,
    Function.update_self, hset]
  rfl

/-- **Whatever the path is, the bridge is started from it**, with the address and the port that the
user has set, and nothing else is run before. -/
theorem launcher_starts (home : List Char) (env : Env) :
    ran env (commands {} (tokens (launcher (quote home)))) = [
      ⟨launcherEnv home env, ["[".toList, "-e".toList, dongle, "]".toList], []⟩,
      ⟨launcherEnv home env, ["echo".toList,
          "rebocap: dongle not found at ".toList ++ dongle ++ ". Plug it in first".toList],
        [⟨[], true, "2".toList⟩]⟩,
      ⟨launcherEnv home env, ["wine".toList, home ++ "/bridge.exe".toList,
          Env.orElse env "BRIDGE_BIND".toList "127.0.0.1".toList,
          Env.orElse env "BRIDGE_PORT".toList "36850".toList],
        [⟨"2".toList, false, home ++ "/bridge.log".toList⟩]⟩] := by
  have hhome := launcherEnv_home home env
  have hbind : Env.orElse (launcherEnv home env) "BRIDGE_BIND".toList "127.0.0.1".toList =
      Env.orElse env "BRIDGE_BIND".toList "127.0.0.1".toList := by
    rw [Env.orElse, launcherEnv_of_not_mem home env (by decide), Env.orElse]
  have hport : Env.orElse (launcherEnv home env) "BRIDGE_PORT".toList "36850".toList =
      Env.orElse env "BRIDGE_PORT".toList "36850".toList := by
    rw [Env.orElse, launcherEnv_of_not_mem home env (by decide), Env.orElse]
  rw [commands_launcher, commands_launcherTail, ran, eval_home, ran, eval_export, ran,
    eval_of_not_assignment rfl (by decide), ran, eval_of_not_assignment rfl (by decide), ran,
    eval_of_not_assignment rfl (by decide), ran]
  simp only [List.map_cons, List.map_nil, expand_lits, expand_param, expand_var, hhome, hbind,
    hport]
  rfl

end Rebocap.Install
