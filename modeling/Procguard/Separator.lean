import Procguard.EnvFallback

/- The separator before the operands. After `--` the loop takes no duration: the
   first operand is the command, so that TIMEOUT can give the duration. The options
   before it are read as they are without it. -/
namespace Procguard
open Text

variable {opts rest : List String} {d c : String} {r : Args}

/-- What follows the loop: `-v` and `-q` are refused together. -/
def quietAndVerbose (r : Args) : Except ParseExit Args :=
  if r.verbose && r.quiet then .error (.error "-v/--verbose cannot be used with -q/--quiet")
  else .ok r

theorem parseFromSlice_eq (argv : List String) :
    parseFromSlice argv = (parseTokens { rest := argv }).bind fun st => quietAndVerbose st.result := by
  unfold parseFromSlice
  cases parseTokens { rest := argv } <;> rfl

/-- The check does not look at the positionals. -/
theorem quietAndVerbose_setPositionals (r : Args) (duration command : Option String)
    (args : List String) :
    quietAndVerbose (r.setPositionals duration command args) =
      (quietAndVerbose r).map fun r => r.setPositionals duration command args := by
  unfold quietAndVerbose Args.setPositionals
  by_cases h : (r.verbose && r.quiet) = true
  · simp only [h, if_true]
    rfl
  · simp only [h]
    rfl

/-- Operands that follow the options: the options decide whether the line is accepted. -/
theorem CompleteOptions.operands (ho : CompleteOptions opts) {more : List String}
    {duration command : Option String} {args : List String} {sep : Bool}
    (hmore : ∀ r : Args, parseTokens ⟨r.setPositionals none none [], false, more⟩ =
      .ok ⟨r.setPositionals duration command args, sep, []⟩) :
    parseFromSlice (opts ++ more) =
      (parseFromSlice opts).map fun r => r.setPositionals duration command args := by
  rw [parseFromSlice_eq, parseFromSlice_eq, ho.closed more]
  cases hread : parseTokens { rest := opts } with
  | error e => rfl
  | ok st =>
    have hst := ho.read hread
    calc ((parseTokens { st with rest := more }).bind fun st => quietAndVerbose st.result)
        = quietAndVerbose (st.result.setPositionals duration command args) := by
          rw [hst, hmore]
          rfl
      _ = (quietAndVerbose st.result).map fun r => r.setPositionals duration command args :=
          quietAndVerbose_setPositionals _ _ _ _

/-- After the separator: the command and its arguments. -/
theorem parseTokens_separated (r : Args) (d : String) (rest : List String) :
    parseTokens ⟨r.setPositionals none none [], false, "--" :: d :: rest⟩ =
      .ok ⟨r.setPositionals none (some d) rest, true, []⟩ := by
  have hfirst : parseTokens ⟨r.setPositionals none none [], false, "--" :: d :: rest⟩ =
      parseTokens ⟨r.setPositionals none none [], true, d :: rest⟩ := by
    rw [parseTokens_cons rfl]
    rfl
  have hcommand : parseTokens ⟨r.setPositionals none none [], true, d :: rest⟩ =
      parseTokens ⟨r.setPositionals none (some d) [], true, rest⟩ := by
    rw [parseTokens_cons rfl]
    rfl
  rw [hfirst, hcommand, parseTokens_command rfl]
  rfl

/-- Without it: the duration, the command and its arguments. -/
theorem parseTokens_unseparated (hd : startsWith d "-" = false) (hc : startsWith c "-" = false)
    (hrest : ∀ w ∈ rest, startsWith w "-" = false) (r : Args) :
    parseTokens ⟨r.setPositionals none none [], false, d :: c :: rest⟩ =
      .ok ⟨r.setPositionals (some d) (some c) rest, rest.contains "--", []⟩ := by
  have hnone : "--" ∉ rest := by
    intro hmem
    have hdash := hrest "--" hmem
    exact absurd hdash (by decide)
  rw [parseTokens_duration hd,
    parseTokens_line (operand_ne_separator hc) (readsOption_operand hc),
    List.erase_of_not_mem hnone]

/-- **After the separator everything is the command and its arguments**: with `--` before them
    the operands `d`, `c` and the rest give no duration, without it `d` is the duration. The
    option fields are those of the options alone, and both lines are refused with them. -/
theorem separator_moves_operands (ho : CompleteOptions opts) (hd : startsWith d "-" = false)
    (hc : startsWith c "-" = false) (hrest : ∀ w ∈ rest, startsWith w "-" = false) :
    parseFromSlice (opts ++ ["--", d, c] ++ rest) =
        (parseFromSlice opts).map (fun r => r.setPositionals none (some d) (c :: rest)) ∧
      parseFromSlice (opts ++ [d, c] ++ rest) =
        (parseFromSlice opts).map (fun r => r.setPositionals (some d) (some c) rest) := by
  rw [List.append_assoc, List.append_assoc]
  exact ⟨ho.operands fun r => parseTokens_separated r d (c :: rest),
    ho.operands fun r => parseTokens_unseparated hd hc hrest r⟩

theorem separator_moves_operands_ls :
    parseFromSlice (["--json"] ++ ["--", "5s", "ls"] ++ ["x"]) =
        (parseFromSlice ["--json"]).map (fun r => r.setPositionals none (some "5s") ["ls", "x"]) ∧
      parseFromSlice (["--json"] ++ ["5s", "ls"] ++ ["x"]) =
        (parseFromSlice ["--json"]).map (fun r => r.setPositionals (some "5s") (some "ls") ["x"]) :=
  separator_moves_operands (.of_read (r := { json := true }) (by decide) rfl rfl) (by decide)
    (by decide) (by decide)

/-- `procguard -- 5s ls` has the command `5s` and no duration. -/
theorem separator_takes_duration : ¬ ∀ (opts : List String) (d c : String) (rest : List String),
    CompleteOptions opts → startsWith d "-" = false → startsWith c "-" = false →
    (∀ w ∈ rest, startsWith w "-" = false) →
    parseFromSlice (opts ++ ["--", d, c] ++ rest) = parseFromSlice (opts ++ [d, c] ++ rest) := by
  intro h
  have heq := h [] "5s" "ls" [] (.of_read (r := {}) rfl rfl rfl) (by decide) (by decide) nofun
  exact absurd heq (by decide)

end Procguard
