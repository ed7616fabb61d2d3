import Procguard.OptionRules

/- Where the command's arguments come from. `Reaches` is every state of the loop on a
   command line, `CommandAt` the iteration that takes the command. From there on the
   loop reads no option: the tokens are the command's, except that the first `--` is
   still dropped as a separator when none came before. -/
namespace Procguard
open Text

/-- The states of the loop on `argv`. -/
inductive Reaches (argv : List String) : ParseState → Prop where
  | start : Reaches argv { rest := argv }
  | step {st st' : ParseState} {arg : String} {rest : List String} (h : Reaches argv st)
      (hrest : st.rest = arg :: rest) (ht : parseToken st arg rest = .ok st') : Reaches argv st'

namespace Reaches
variable {argv : List String} {st : ParseState}

/-- The loop ends as it does from any state it reaches. -/
theorem parse (h : Reaches argv st) : parseTokens { rest := argv } = parseTokens st := by
  induction h with
  | start => rfl
  | @step st st' arg rest _ hrest ht ih =>
    calc parseTokens { rest := argv } = parseTokens st := ih
      _ = (parseToken st arg rest).bind parseTokens := parseTokens_cons hrest
      _ = parseTokens st' := by rw [ht]; rfl

/-- Arguments are only taken after the command. -/
theorem args_nil (h : Reaches argv st) : st.result.command = none → st.result.args = [] := by
  induction h with
  | start => intro _; rfl
  | step _ _ ht ih =>
    intro hnone
    cases parseToken_taken ht with
    | operand hsep =>
      unfold Args.operand at hnone ⊢
      split at hnone
      · cases hnone
      · next hcmd => exact absurd (Option.isNone_iff_eq_none.mpr hnone) hcmd
    | separator => exact ih hnone
    | argument hsep harg hcmd =>
      rw [Option.isSome_iff_ne_none] at hcmd
      exact absurd hnone hcmd
    | positional hsep harg hcmd hread =>
      unfold Args.positional at hnone ⊢
      rw [hcmd] at hnone ⊢
      split at hnone
      · next hdur => rw [if_pos hdur]; exact ih hcmd
      · cases hnone
    | option hsep harg hcmd hread hset hleft => rw [hset.args]; exact ih hcmd

end Reaches

/-! ## After the command -/

/-- What becomes of the tokens after the command. -/
def afterCommand (sawSeparator : Bool) (rest : List String) : List String :=
  if sawSeparator then rest else rest.erase "--"

theorem parseToken_command {r : Args} (hcmd : r.command.isSome = true) (sep : Bool)
    (rest₀ : List String) (arg : String) (rest : List String) :
    parseToken ⟨r, sep, rest₀⟩ arg rest =
      if sep = false ∧ arg = "--" then .ok ⟨r, true, rest⟩
      else .ok ⟨{ r with args := r.args ++ [arg] }, sep, rest⟩ := by
  have hsome : ¬ r.command.isNone = true := by
    intro h
    rw [Option.isNone_iff_eq_none.mp h] at hcmd
    cases hcmd
  unfold parseToken
  cases sep with
  | true =>
    simp only [if_true, hsome, Bool.true_eq_false, false_and, if_false]
    rfl
  | false =>
    by_cases harg : arg = "--"
    · simp only [harg, Bool.false_eq_true, if_false, if_true, and_self]
    · simp only [harg, hcmd, Bool.false_eq_true, if_false, if_true, and_false]

/-- **Once the command is set every token is an argument, but for the first separator.** -/
theorem parseTokens_command {r : Args} (hcmd : r.command.isSome = true) (sep : Bool)
    (rest : List String) :
    parseTokens ⟨r, sep, rest⟩ =
      .ok ⟨{ r with args := r.args ++ afterCommand sep rest }, sep || rest.contains "--", []⟩ := by
  induction rest generalizing r sep with
  | nil =>
    rw [parseTokens_nil rfl]
    cases sep <;> simp [afterCommand]
  | cons arg rest ih =>
    rw [parseTokens_cons rfl, parseToken_command hcmd]
    cases sep with
    | true =>
      rw [if_neg (by simp)]
      show parseTokens _ = _
      rw [ih (r := { r with args := r.args ++ [arg] }) hcmd]
      simp [afterCommand]
    | false =>
      by_cases harg : arg = "--"
      · rw [if_pos ⟨rfl, harg⟩]
        show parseTokens _ = _
        rw [ih hcmd]
        simp [afterCommand, harg]
      · rw [if_neg (fun h => harg h.2)]
        show parseTokens _ = _
        rw [ih (r := { r with args := r.args ++ [arg] }) hcmd]
        have hne : ¬ "--" = arg := Ne.symm harg
        simp [afterCommand, harg, hne]

/-- On the way through `argv` the token at `i` is taken as the command; `sep` tells whether
    a separator came before it. -/
def CommandAt (argv : List String) (i : Nat) (sep : Bool) : Prop :=
  ∃ r st' c, Reaches argv ⟨r, sep, argv.drop i⟩ ∧ argv[i]? = some c ∧ r.command = none ∧
    parseToken ⟨r, sep, argv.drop i⟩ c (argv.drop (i + 1)) = .ok st' ∧
    st'.result.command = some c

/-- The iteration that takes the command changes nothing else. -/
theorem Taken.command {r : Args} {sep : Bool} {st' : ParseState} {rest₀ rest : List String}
    {c : String} (ht : Taken ⟨r, sep, rest₀⟩ c rest st') (hnone : r.command = none)
    (hcmd : st'.result.command = some c) : st' = ⟨{ r with command := some c }, sep, rest⟩ := by
  cases ht with
  | operand hsep =>
    have : r.operand c = { r with command := some c } := by
      unfold Args.operand
      rw [hnone]
      rfl
    rw [this]
  | separator => rw [hnone] at hcmd; cases hcmd
  | argument _ _ hsome => rw [hnone] at hsome; cases hsome
  | positional =>
    unfold Args.positional at hcmd ⊢
    by_cases hdur : r.duration.isNone = true
    · rw [if_pos hdur] at hcmd
      cases hnone.symm.trans hcmd
    · rw [if_neg hdur, hnone]
      rfl
  | option _ _ _ _ hset _ =>
    have : r.command = some c := hset.command.symm.trans hcmd
    rw [hnone] at this
    cases this

theorem parseFromSlice_tokens {argv : List String} {r : Args} (h : parseFromSlice argv = .ok r) :
    ∃ st, parseTokens { rest := argv } = .ok st ∧ st.result = r ∧
      ¬ (r.verbose = true ∧ r.quiet = true) := by
  unfold parseFromSlice at h
  cases hp : parseTokens { rest := argv } with
  | error e => rw [hp] at h; cases h
  | ok st =>
    rw [hp] at h
    by_cases hnoise : (st.result.verbose && st.result.quiet) = true
    · rw [show (Except.ok st >>= _ : Except ParseExit Args) = _ from if_pos hnoise] at h
      cases h
    · rw [show (Except.ok st >>= _ : Except ParseExit Args) = _ from if_neg hnoise] at h
      cases h
      rw [Bool.and_eq_true] at hnoise
      exact ⟨st, rfl, rfl, hnoise⟩

/-- **The tokens after the command are its arguments, in order and untouched, except that the
    first `--` among them is dropped when no separator came before the command.** -/
theorem command_args {argv : List String} {i : Nat} {sep : Bool} {r : Args}
    (hat : CommandAt argv i sep) (h : parseFromSlice argv = .ok r) :
    r.command = argv[i]? ∧
      r.args = if sep then argv.drop (i + 1) else (argv.drop (i + 1)).erase "--" := by
  obtain ⟨r₀, st', c, hreach, hc, hnone, ht, hcmd⟩ := hat
  obtain ⟨st, hp, rfl, -⟩ := parseFromSlice_tokens h
  have hst' := (parseToken_taken ht).command hnone hcmd
  subst hst'
  have hcons : argv.drop i = c :: argv.drop (i + 1) := by
    obtain ⟨hi, hget⟩ := List.getElem?_eq_some_iff.mp hc
    rw [List.drop_eq_getElem_cons hi, hget]
  have hend : parseTokens { rest := argv } =
      parseTokens ⟨{ r₀ with command := some c }, sep, argv.drop (i + 1)⟩ :=
    (hreach.step hcons ht).parse
  rw [hp, parseTokens_command (r := { r₀ with command := some c }) rfl] at hend
  cases hend
  have hargs : r₀.args = [] := hreach.args_nil hnone
  refine ⟨hc.symm, ?_⟩
  simp only [hargs, List.nil_append]
  rfl

/-! `procguard 5s sh -- -c x`, as the integration tests spell it. -/

def shLine : List String := ["5s", "sh", "--", "-c", "x"]

def shArgs : Args := { duration := some "5s", command := some "sh", args := ["-c", "x"] }

theorem shLine_command : CommandAt shLine 1 false :=
  have hreach : Reaches shLine ⟨{ duration := some "5s" }, false, shLine.drop 1⟩ :=
    Reaches.step (.start) (show shLine = "5s" :: _ from rfl) (by decide)
  ⟨{ duration := some "5s" }, ⟨{ duration := some "5s", command := some "sh" }, false, shLine.drop 2⟩,
    "sh", hreach, rfl, rfl, by decide, rfl⟩

theorem shLine_parsed : parseFromSlice shLine = .ok shArgs := by decide

theorem command_args_shLine :
    shArgs.command = shLine[1]? ∧
      shArgs.args = if false then shLine.drop 2 else (shLine.drop 2).erase "--" :=
  command_args shLine_command shLine_parsed

/-- The token `--` does not reach the command. -/
theorem separator_dropped : ¬ ∀ argv i sep r, parseFromSlice argv = .ok r → CommandAt argv i sep →
    r.args = argv.drop (i + 1) := by
  intro h
  have hargs : shArgs.args = shLine.drop 2 := h shLine 1 false shArgs shLine_parsed shLine_command
  exact absurd hargs (by decide)

end Procguard
