import Procguard.Options

/- What the loop of `parse_from_slice` does, said once. A token is taken as a
   positional, or it sets options (`OptionsSet`) and may take the next token for a
   value; from this follow what the options leave alone, how a list of tokens is
   read in two parts, and where the command's arguments come from. -/
namespace Procguard
open Text

/-! ## Options leave the positionals alone -/

/-- `r'` is `r` with some options set. -/
inductive OptionsSet : Args → Args → Prop where
  | refl (r : Args) : OptionsSet r r
  | flag {r r' : Args} (f : Flag) (h : OptionsSet (f.set r) r') : OptionsSet r r'
  | value {r r₁ r' : Args} (o : ValueOpt) (val : String) (hset : o.set r val = .ok r₁)
      (h : OptionsSet r₁ r') : OptionsSet r r'

/-- Duration, command and arguments. -/
def Args.positionals (r : Args) : Option String × Option String × List String :=
  (r.duration, r.command, r.args)

theorem Flag.set_positionals (r : Args) (f : Flag) : (f.set r).positionals = r.positionals := by
  cases f <;> rfl

theorem ValueOpt.set_positionals {r r' : Args} {val : String} {o : ValueOpt}
    (h : o.set r val = .ok r') : r'.positionals = r.positionals := by
  unfold ValueOpt.set at h
  split at h
  case h_3 | h_6 =>
    split at h
    · cases h; rfl
    · cases h
  all_goals cases h; rfl

/-- An option does not take back `-v` or `-q`. -/
def Args.KeepsNoise (r r' : Args) : Prop :=
  (r.verbose = true → r'.verbose = true) ∧ (r.quiet = true → r'.quiet = true)

theorem Args.KeepsNoise.refl (r : Args) : r.KeepsNoise r := ⟨id, id⟩

theorem Args.KeepsNoise.trans {r₁ r₂ r₃ : Args} (h : r₁.KeepsNoise r₂) (h' : r₂.KeepsNoise r₃) :
    r₁.KeepsNoise r₃ := ⟨fun hv => h'.1 (h.1 hv), fun hq => h'.2 (h.2 hq)⟩

theorem Flag.set_noise (r : Args) (f : Flag) : r.KeepsNoise (f.set r) := by
  cases f <;> constructor <;> intro h <;> first | exact h | rfl

theorem ValueOpt.set_noise {r r' : Args} {val : String} {o : ValueOpt}
    (h : o.set r val = .ok r') : r.KeepsNoise r' := by
  unfold ValueOpt.set at h
  split at h
  case h_3 | h_6 =>
    split at h
    · cases h; exact ⟨id, id⟩
    · cases h
  all_goals cases h; exact ⟨id, id⟩

namespace OptionsSet
variable {r r₁ r₂ : Args}

theorem positionals (h : OptionsSet r r₁) : r₁.positionals = r.positionals := by
  induction h with
  | refl => rfl
  | flag f _ ih => rw [ih, Flag.set_positionals]
  | value o val hset _ ih => rw [ih, ValueOpt.set_positionals hset]

theorem noise (h : OptionsSet r r₁) : r.KeepsNoise r₁ := by
  induction h with
  | refl r => exact .refl r
  | flag f _ ih => exact (Flag.set_noise _ f).trans ih
  | value o val hset _ ih => exact (ValueOpt.set_noise hset).trans ih

theorem duration (h : OptionsSet r r₁) : r₁.duration = r.duration :=
  congrArg Prod.fst h.positionals

theorem command (h : OptionsSet r r₁) : r₁.command = r.command :=
  congrArg (fun p => p.2.1) h.positionals

theorem args (h : OptionsSet r r₁) : r₁.args = r.args :=
  congrArg (fun p => p.2.2) h.positionals

end OptionsSet

/-! ## What one token does -/

/-- `rest'` is what is left of `rest` when at most one token was taken for a value. -/
def LeftOf (rest rest' : List String) : Prop := rest' = rest ∨ ∃ val, rest = val :: rest'

theorem takeValue_cases {o : ValueOpt} {missing : String} {r r' : Args} {rest rest' : List String}
    (h : takeValue o missing r rest = .ok (r', rest')) :
    OptionsSet r r' ∧ LeftOf rest rest' := by
  cases rest with
  | nil => cases h
  | cons val rest =>
    simp only [takeValue] at h
    cases hset : o.set r val with
    | error e => rw [hset] at h; cases h
    | ok r₁ =>
      rw [hset] at h
      cases h
      exact ⟨.value o val hset (.refl _), .inr ⟨val, rfl⟩⟩

theorem set_cases {o : ValueOpt} {val : String} {r r' : Args} {rest rest' : List String}
    (h : (o.set r val).map (fun r₁ => (r₁, rest)) = .ok (r', rest')) :
    OptionsSet r r' ∧ LeftOf rest rest' := by
  cases hset : o.set r val with
  | error e => rw [hset] at h; cases h
  | ok r₁ =>
    rw [hset] at h
    cases h
    exact ⟨.value o val hset (.refl _), .inl rfl⟩

theorem cluster_cases {s : String} {letters : List Char} {r r' : Args} {rest rest' : List String}
    (h : cluster s letters r rest = .ok (r', rest')) : OptionsSet r r' ∧ LeftOf rest rest' := by
  fun_induction cluster s letters r rest with
  | case1 r rest => cases h; exact ⟨.refl _, .inl rfl⟩
  | case2 | case3 | case4 | case5 => cases h
  | case6 r rest c letters _ _ f hf ih =>
    obtain ⟨hset, hleft⟩ := ih h
    exact ⟨.flag f hset, hleft⟩
  | case7 => exact takeValue_cases h
  | case8 => exact set_cases h
  | case9 => cases h

/-- The arms of the `match` that read the token as an option. -/
def Word.isOption : Word → Bool
  | .short | .positional => false
  | .help | .version | .flag _ | .value _ _ | .inline _ _ | .unknownLong => true

/-- Whether the `match` reads the token as an option. -/
def readsOption (r : Args) (arg : String) : Bool :=
  (classify arg).isOption || (classify arg == .short && !(r.duration.isSome || secondIsDigit arg))

/-- **A token is a positional, or it sets options and takes at most one more token.** -/
theorem readOption_cases {r r' : Args} {arg : String} {rest rest' : List String}
    (h : readOption r arg rest = .ok (r', rest')) :
    (readsOption r arg = false ∧ r' = r.positional arg ∧ rest' = rest) ∨
      (readsOption r arg = true ∧ OptionsSet r r' ∧ LeftOf rest rest') := by
  unfold readOption at h
  unfold readsOption
  cases hw : classify arg with
  | help | version | unknownLong => simp only [hw] at h; cases h
  | flag f =>
    simp only [hw] at h
    cases h
    exact .inr ⟨rfl, .flag f (.refl _), .inl rfl⟩
  | value o missing =>
    simp only [hw] at h
    exact .inr ⟨rfl, takeValue_cases h⟩
  | inline o val =>
    simp only [hw] at h
    exact .inr ⟨rfl, set_cases h⟩
  | positional =>
    simp only [hw] at h
    cases h
    exact .inl ⟨rfl, rfl, rfl⟩
  | short =>
    simp only [hw] at h
    split at h
    · next hpos =>
      cases h
      exact .inl ⟨by rw [hpos]; rfl, rfl, rfl⟩
    · next hpos =>
      exact .inr ⟨by rw [Bool.eq_false_iff.mpr hpos]; rfl, cluster_cases h⟩

theorem readOption_positional {r : Args} {arg : String} (h : readsOption r arg = false)
    (rest : List String) : readOption r arg rest = .ok (r.positional arg, rest) := by
  unfold readsOption at h
  unfold readOption
  cases hw : classify arg with
  | positional => rfl
  | short =>
    rw [hw] at h
    simp only [Word.isOption, Bool.false_or, beq_self_eq_true, Bool.true_and,
      Bool.not_eq_false'] at h
    simp only [h, if_true]
  | help | version | flag | value | inline | unknownLong => rw [hw] at h; cases h

/-- Every option starts with a dash. -/
theorem classify_operand {s : String} (h : startsWith s "-" = false) : classify s = .positional := by
  have hnot : ∀ p : String, startsWith p "-" = true → startsWith s p = false := by
    intro p hp
    cases hs : startsWith s p with
    | false => rfl
    | true => rw [startsWith_trans hs hp] at h; cases h
  have hexact : exactArms.lookup s = none := by
    rw [List.lookup_eq_none_iff]
    intro arm harm
    have hdash : startsWith arm.1 "-" = true :=
      (show ∀ arm ∈ exactArms, startsWith arm.1 "-" = true by decide +kernel) arm harm
    rw [bne_iff_ne]
    intro hs
    rw [hs, hdash] at h
    cases h
  have hinline : inlineArms.find? (fun arm => startsWith s arm.1) = none := by
    rw [List.find?_eq_none]
    intro arm harm
    have hdash : startsWith arm.1 "-" = true :=
      (show ∀ arm ∈ inlineArms, startsWith arm.1 "-" = true by decide +kernel) arm harm
    rw [hnot arm.1 hdash]
    exact Bool.false_ne_true
  unfold classify
  simp only [hexact, hinline, hnot "--" (by decide), h, Bool.false_and, Bool.false_eq_true, if_false]

/-- Options take a value from the tokens after them, whatever follows these. -/
theorem takeValue_append {o : ValueOpt} {missing : String} {r r' : Args}
    {rest rest' : List String} (h : takeValue o missing r rest = .ok (r', rest'))
    (more : List String) : takeValue o missing r (rest ++ more) = .ok (r', rest' ++ more) := by
  cases rest with
  | nil => cases h
  | cons val rest =>
    simp only [takeValue, List.cons_append] at h ⊢
    cases hset : o.set r val with
    | error e => rw [hset] at h; cases h
    | ok r₁ => rw [hset] at h; cases h; rfl

theorem set_append {o : ValueOpt} {val : String} {r r' : Args} {rest rest' : List String}
    (h : (o.set r val).map (fun r₁ => (r₁, rest)) = .ok (r', rest')) (more : List String) :
    (o.set r val).map (fun r₁ => (r₁, rest ++ more)) = .ok (r', rest' ++ more) := by
  cases hset : o.set r val with
  | error e => rw [hset] at h; cases h
  | ok r₁ => rw [hset] at h; cases h; rfl

theorem cluster_append {s : String} {letters : List Char} {r r' : Args} {rest rest' : List String}
    (h : cluster s letters r rest = .ok (r', rest')) (more : List String) :
    cluster s letters r (rest ++ more) = .ok (r', rest' ++ more) := by
  fun_induction cluster s letters r rest with
  | case1 r rest => cases h; rw [cluster]
  | case2 | case3 | case4 | case5 => cases h
  | case6 r rest c letters hh hV f hf ih =>
    rw [cluster, hf]
    · exact ih h
    · exact hh
    · exact hV
  | case7 r rest c letters hh hV hf o missing hv hempty =>
    rw [cluster, hf]
    · simp only [hv, hempty, if_true]
      exact takeValue_append h more
    · exact hh
    · exact hV
  | case8 r rest c letters hh hV hf o missing hv hempty =>
    rw [cluster, hf]
    · simp only [hv, hempty]
      exact set_append h more
    · exact hh
    · exact hV
  | case9 => cases h

theorem readOption_append {r r' : Args} {arg : String} {rest rest' : List String}
    (h : readOption r arg rest = .ok (r', rest')) (more : List String) :
    readOption r arg (rest ++ more) = .ok (r', rest' ++ more) := by
  unfold readOption at h ⊢
  cases hw : classify arg with
  | help | version | unknownLong => simp only [hw] at h; cases h
  | flag f => simp only [hw] at h; cases h; rfl
  | value o missing => simp only [hw] at h; exact takeValue_append h more
  | inline o val => simp only [hw] at h; exact set_append h more
  | positional => simp only [hw] at h; cases h; rfl
  | short =>
    simp only [hw] at h
    split at h
    · next hpos => cases h; simp only [hpos, if_true]
    · next hpos =>
      simp only [hpos]
      exact cluster_append h more

/-! ## One iteration -/

/-- After `--`: the command, then its arguments. -/
def Args.operand (r : Args) (arg : String) : Args :=
  if r.command.isNone then { r with command := some arg } else { r with args := r.args ++ [arg] }

/-- What an iteration that goes on makes of the token `arg`. -/
inductive Taken (st : ParseState) (arg : String) (rest : List String) : ParseState → Prop where
  | operand (hsep : st.sawSeparator = true) :
    Taken st arg rest { st with result := st.result.operand arg, rest }
  | separator (hsep : st.sawSeparator = false) (harg : arg = "--") :
    Taken st arg rest { st with sawSeparator := true, rest }
  | argument (hsep : st.sawSeparator = false) (harg : arg ≠ "--")
      (hcmd : st.result.command.isSome = true) :
    Taken st arg rest { st with result.args := st.result.args ++ [arg], rest }
  | positional (hsep : st.sawSeparator = false) (harg : arg ≠ "--")
      (hcmd : st.result.command = none) (hread : readsOption st.result arg = false) :
    Taken st arg rest { st with result := st.result.positional arg, rest }
  | option {r' : Args} {rest' : List String} (hsep : st.sawSeparator = false) (harg : arg ≠ "--")
      (hcmd : st.result.command = none) (hread : readsOption st.result arg = true)
      (hset : OptionsSet st.result r') (hleft : LeftOf rest rest') :
    Taken st arg rest { st with result := r', rest := rest' }

/-- **One iteration, said once.** -/
theorem parseToken_taken {st st' : ParseState} {arg : String} {rest : List String}
    (h : parseToken st arg rest = .ok st') : Taken st arg rest st' := by
  obtain ⟨r, sep, rest₀⟩ := st
  unfold parseToken at h
  dsimp only at h
  cases sep with
  | true =>
    -- the operand goes where there is room for it, and the parser says which way
    have hop : Taken ⟨r, true, rest₀⟩ arg rest ⟨r.operand arg, true, rest⟩ := .operand rfl
    unfold Args.operand at hop
    rw [if_pos rfl] at h
    split at h <;> next hcmd =>
      simp only [hcmd, if_true, Bool.false_eq_true, if_false] at hop
      cases h
      exact hop
  | false =>
    rw [if_neg Bool.false_ne_true] at h
    by_cases harg : arg = "--"
    · rw [if_pos harg] at h
      cases h
      exact .separator rfl harg
    rw [if_neg harg] at h
    by_cases hcmd : r.command.isSome = true
    · rw [if_pos hcmd] at h
      cases h
      exact .argument rfl harg hcmd
    rw [if_neg hcmd] at h
    have hnone : r.command = none := Option.not_isSome_iff_eq_none.mp hcmd
    cases hr : readOption r arg rest with
    | error e => rw [hr] at h; cases h
    | ok p =>
      rw [hr] at h
      cases h
      obtain ⟨r', rest'⟩ := p
      -- a reader that takes nothing leaves an operand; one that takes is an option
      rcases readOption_cases hr with ⟨hread, rfl, rfl⟩ | ⟨hread, hset, hleft⟩
      · exact .positional rfl harg hnone hread
      · exact .option rfl harg hnone hread hset hleft

theorem LeftOf.suffix {rest rest' : List String} (h : LeftOf rest rest') : rest' <:+ rest := by
  rcases h with rfl | ⟨val, rfl⟩
  · exact List.suffix_refl _
  · exact List.suffix_cons _ _

/-- An iteration takes its token, and leaves the end of what is behind it. -/
theorem Taken.suffix {st st' : ParseState} {arg : String} {rest : List String}
    (h : Taken st arg rest st') : st'.rest <:+ rest := by
  cases h with
  | option _ _ _ _ _ hleft => exact hleft.suffix
  | operand | separator | argument | positional => exact List.suffix_refl _

theorem Taken.length_le {st st' : ParseState} {arg : String} {rest : List String}
    (h : Taken st arg rest st') : st'.rest.length ≤ rest.length := h.suffix.length_le

theorem Args.positional_noise (r : Args) (arg : String) : r.KeepsNoise (r.positional arg) := by
  unfold Args.positional
  split
  · exact .refl _
  · split <;> exact .refl _

theorem Args.operand_noise (r : Args) (arg : String) : r.KeepsNoise (r.operand arg) := by
  unfold Args.operand
  split <;> exact .refl _

theorem Taken.noise {st st' : ParseState} {arg : String} {rest : List String}
    (h : Taken st arg rest st') : st.result.KeepsNoise st'.result := by
  cases h with
  | operand => exact Args.operand_noise _ _
  | separator => exact .refl _
  | argument => exact .refl _
  | positional => exact Args.positional_noise _ _
  | option _ _ _ _ hset _ => exact hset.noise

theorem parseToken_append {st st' : ParseState} {arg : String} {rest : List String}
    (h : parseToken st arg rest = .ok st') (more : List String) :
    parseToken st arg (rest ++ more) = .ok { st' with rest := st'.rest ++ more } := by
  unfold parseToken at h ⊢
  dsimp only at h ⊢
  split at h
  · next hsep =>
    rw [if_pos hsep]
    split at h <;> next hcmd => cases h; simp only [hcmd, if_true, Bool.false_eq_true, if_false]
  next hsep =>
  rw [if_neg hsep]
  split at h
  · next harg => cases h; rw [if_pos harg]
  next harg =>
  rw [if_neg harg]
  split at h
  · next hcmd => cases h; rw [if_pos hcmd]
  next hcmd =>
  rw [if_neg hcmd]
  cases hr : readOption st.result arg rest with
  | error e => rw [hr] at h; cases h
  | ok p =>
    rw [hr] at h
    cases h
    rw [readOption_append hr]
    rfl

/-! ## The loop -/

theorem parseLoop_fuel {n m : Nat} {st : ParseState} (hn : st.rest.length ≤ n)
    (hm : st.rest.length ≤ m) : parseLoop n st = parseLoop m st := by
  -- on the number of iterations: each takes a token, so both are enough
  induction n generalizing m st with
  | zero =>
    have hnil : st.rest = [] := List.eq_nil_of_length_eq_zero (Nat.le_zero.mp hn)
    cases m with
    | zero => rfl
    | succ m => simp only [parseLoop, hnil]
  | succ n ih =>
    cases hrest : st.rest with
    | nil => cases m <;> simp only [parseLoop, hrest]
    | cons arg rest =>
      rw [hrest, List.length_cons] at hn hm
      cases m with
      | zero => omega
      | succ m =>
        simp only [parseLoop, hrest]
        cases ht : parseToken st arg rest with
        | error e => rfl
        | ok st' =>
          have hle := (parseToken_taken ht).length_le
          exact ih (by omega) (by omega)

theorem parseTokens_nil {st : ParseState} (h : st.rest = []) : parseTokens st = .ok st := by
  unfold parseTokens
  rw [h]
  rfl

theorem parseTokens_cons {st : ParseState} {arg : String} {rest : List String}
    (h : st.rest = arg :: rest) : parseTokens st = (parseToken st arg rest).bind parseTokens := by
  unfold parseTokens
  rw [h, List.length_cons]
  simp only [parseLoop, h]
  cases ht : parseToken st arg rest with
  | error e => rfl
  | ok st' => exact parseLoop_fuel (parseToken_taken ht).length_le (Nat.le_refl _)

/-- **An invariant of the loop**: `P` relates the state it starts from to the one it ends in
    when it is reflexive, every iteration adds to it, and nothing is left to read. -/
theorem parseTokens_rule {P : ParseState → ParseState → Prop}
    (hdone : ∀ st, st.rest = [] → P st st)
    (hstep : ∀ st st' st'' arg rest, st.rest = arg :: rest → Taken st arg rest st' → P st' st'' →
      P st st'') {st st' : ParseState} (h : parseTokens st = .ok st') : P st st' := by
  induction hn : st.rest.length using Nat.strong_induction_on generalizing st with
  | _ n ih =>
    cases hrest : st.rest with
    | nil =>
      rw [parseTokens_nil hrest] at h
      cases h
      exact hdone _ hrest
    | cons arg rest =>
      rw [parseTokens_cons hrest] at h
      cases ht : parseToken st arg rest with
      | error e => rw [ht] at h; cases h
      | ok st₁ =>
        rw [ht] at h
        have hle := (parseToken_taken ht).length_le
        have hlt : st₁.rest.length < n := by rw [← hn, hrest, List.length_cons]; omega
        exact hstep st st₁ st' arg rest hrest (parseToken_taken ht) (ih _ hlt h rfl)

theorem parseTokens_noise {st st' : ParseState} (h : parseTokens st = .ok st') :
    st.result.KeepsNoise st'.result :=
  parseTokens_rule (P := fun st st' => st.result.KeepsNoise st'.result) (fun _ _ => .refl _)
    (fun _ _ _ _ _ _ ht hP => ht.noise.trans hP) h

/-- The loop reads to the end. -/
theorem parseTokens_rest {st st' : ParseState} (h : parseTokens st = .ok st') : st'.rest = [] :=
  parseTokens_rule (P := fun _ st' => st'.rest = []) (fun _ h => h) (fun _ _ _ _ _ _ _ hP => hP) h

/-- **A list that is read to its end is read the same whatever follows it.** -/
theorem parseTokens_append {st st' : ParseState} (h : parseTokens st = .ok st')
    (more : List String) :
    parseTokens { st with rest := st.rest ++ more } = parseTokens { st' with rest := more } := by
  induction hn : st.rest.length using Nat.strong_induction_on generalizing st with
  | _ n ih =>
    cases hrest : st.rest with
    | nil =>
      rw [parseTokens_nil hrest] at h
      cases h
      rfl
    | cons arg rest =>
      rw [parseTokens_cons hrest] at h
      cases ht : parseToken st arg rest with
      | error e => rw [ht] at h; cases h
      | ok st₁ =>
        rw [ht] at h
        have hle := (parseToken_taken ht).length_le
        have hlt : st₁.rest.length < n := by rw [← hn, hrest, List.length_cons]; omega
        have hcons : parseTokens { st with rest := arg :: rest ++ more } =
            (parseToken st arg (rest ++ more)).bind parseTokens :=
          @parseTokens_cons { st with rest := arg :: rest ++ more } _ _ rfl
        rw [hcons, parseToken_append ht]
        exact ih _ hlt h rfl

/-! ## Exits -/

/-- The tokens that ask for the help or the version. -/
def exitTokens : List String := ["--help", "-h", "--version", "-V"]

/-- A `ParseError`, and not an exit. -/
def IsError (e : ParseExit) : Prop := ∃ message, e = .error message

theorem set_error {o : ValueOpt} {r : Args} {val : String} {e : ParseExit}
    (h : o.set r val = .error e) : IsError e := by
  unfold ValueOpt.set at h
  split at h
  case h_3 | h_6 =>
    split at h
    · cases h
    · cases h; exact ⟨_, rfl⟩
  all_goals cases h

theorem set_map_error {o : ValueOpt} {r : Args} {val : String} {e : ParseExit}
    {rest : List String} (h : (o.set r val).map (fun r' => (r', rest)) = .error e) : IsError e := by
  cases hset : o.set r val with
  | error e' =>
    rw [hset] at h
    cases h
    exact set_error hset
  | ok r' => rw [hset] at h; cases h

theorem takeValue_error {o : ValueOpt} {missing : String} {r : Args} {rest : List String}
    {e : ParseExit} (h : takeValue o missing r rest = .error e) : IsError e := by
  cases rest with
  | nil => cases h; exact ⟨_, rfl⟩
  | cons val rest => exact set_map_error h

/-- A letter alone behind the dash is a token of two bytes. -/
theorem eq_of_two_bytes {s : String} {before letters : List Char} {x : Char}
    (hs : s.toList = '-' :: (before ++ x :: letters)) (htwo : s.utf8ByteSize = 2) :
    s = String.ofList ['-', x] := by
  have hdash : '-'.utf8Size = 1 := by decide
  have hx := x.utf8Size_pos
  rw [← String.utf8Len_toList, hs, String.utf8Len_cons, String.utf8Len_append, String.utf8Len_cons,
    hdash] at htwo
  have hbefore : before = [] := String.utf8Len_eq_zero.mp (by omega)
  have hletters : letters = [] := String.utf8Len_eq_zero.mp (by omega)
  rw [hbefore, hletters] at hs
  rw [← String.ofList_toList (s := s), hs]
  rfl

/-- The arms of `h` and `V` that exit are those of a token taken before. -/
theorem cluster_error {s : String} {letters : List Char} {r : Args} {rest : List String}
    {e : ParseExit} (h : cluster s letters r rest = .error e) (hexit : s ∉ exitTokens)
    (hs : ∃ before, s.toList = '-' :: (before ++ letters)) : IsError e := by
  fun_induction cluster s letters r rest with
  | case1 => cases h
  | case2 _ _ _ htwo =>
    obtain ⟨before, hs⟩ := hs
    rw [eq_of_two_bytes hs htwo] at hexit
    exact absurd (by decide) hexit
  | case4 _ _ _ htwo =>
    obtain ⟨before, hs⟩ := hs
    rw [eq_of_two_bytes hs htwo] at hexit
    exact absurd (by decide) hexit
  | case3 | case5 | case9 => cases h; exact ⟨_, rfl⟩
  | case6 c _ _ _ _ _ _ _ ih =>
    obtain ⟨before, hs⟩ := hs
    exact ih h ⟨before ++ [c], by rw [hs, List.append_cons]⟩
  | case7 => exact takeValue_error h
  | case8 => exact set_map_error h

theorem classify_exit {arg : String} (h : classify arg = .help ∨
    classify arg = .version) : arg ∈ exitTokens := by
  unfold classify at h
  split at h
  · next w hlookup =>
    obtain ⟨l₁, l₂, harms, -⟩ := List.lookup_eq_some_iff.mp hlookup
    have hmem : (arg, w) ∈ exactArms := by
      rw [harms]
      simp
    exact (show ∀ arm ∈ exactArms, arm.2 = .help ∨ arm.2 = .version → arm.1 ∈ exitTokens by
      decide +kernel) _ hmem h
  · split at h
    · rcases h with h | h <;> cases h
    · split_ifs at h <;> rcases h with h | h <;> cases h

/-- A token that falls under the arm of the clusters starts with a dash. -/
theorem classify_short {arg : String} (h : classify arg = .short) :
    ∃ letters, arg.toList = '-' :: letters := by
  cases hdash : startsWith arg "-" with
  | false => rw [classify_operand hdash] at h; cases h
  | true =>
    obtain ⟨letters, hletters⟩ := startsWith_iff.mp hdash
    exact ⟨letters, hletters.symm⟩

theorem readOption_error {r : Args} {arg : String} {rest : List String} {e : ParseExit}
    (h : readOption r arg rest = .error e) (hexit : arg ∉ exitTokens) : IsError e := by
  unfold readOption at h
  cases hw : classify arg with
  | help => exact absurd (classify_exit (.inl hw)) hexit
  | version => exact absurd (classify_exit (.inr hw)) hexit
  | flag f => rw [hw] at h; cases h
  | positional => rw [hw] at h; cases h
  | unknownLong => rw [hw] at h; cases h; exact ⟨_, rfl⟩
  | value o missing => rw [hw] at h; exact takeValue_error h
  | inline o val => rw [hw] at h; exact set_map_error h
  | short =>
    obtain ⟨letters, hletters⟩ := classify_short hw
    rw [hw] at h
    dsimp only at h
    split_ifs at h
    exact cluster_error h hexit ⟨[], by rw [hletters]; rfl⟩

theorem parseToken_error {st : ParseState} {arg : String} {rest : List String} {e : ParseExit}
    (h : parseToken st arg rest = .error e) (hexit : arg ∉ exitTokens) : IsError e := by
  unfold parseToken at h
  dsimp only at h
  split_ifs at h
  cases hread : readOption st.result arg rest with
  | error e' =>
    rw [hread] at h
    cases h
    exact readOption_error hread hexit
  | ok p => rw [hread] at h; cases h

theorem parseLoop_error {n : Nat} {st : ParseState} {e : ParseExit}
    (h : parseLoop n st = .error e) (hexit : ∀ arg ∈ st.rest, arg ∉ exitTokens) : IsError e := by
  induction n generalizing st with
  | zero => cases h
  | succ n ih =>
    unfold parseLoop at h
    cases hrest : st.rest with
    | nil => rw [hrest] at h; cases h
    | cons arg rest =>
      rw [hrest] at h hexit
      obtain ⟨harg, hmore⟩ := List.forall_mem_cons.mp hexit
      dsimp only at h
      cases ht : parseToken st arg rest with
      | error e' =>
        rw [ht] at h
        cases h
        exact parseToken_error ht harg
      | ok st' =>
        rw [ht] at h
        have hsub := (parseToken_taken ht).suffix.subset
        exact ih h fun a ha => hmore a (hsub ha)

theorem parseFromSlice_error {args : List String} {e : ParseExit}
    (h : parseFromSlice args = .error e) (hexit : ∀ arg ∈ args, arg ∉ exitTokens) :
    IsError e := by
  unfold parseFromSlice at h
  cases ht : parseTokens { rest := args } with
  | error e' =>
    rw [ht] at h
    cases h
    exact parseLoop_error ht hexit
  | ok st =>
    rw [ht] at h
    change (if _ then _ else _) = _ at h
    split at h
    · cases h; exact ⟨_, rfl⟩
    · cases h

end Procguard
