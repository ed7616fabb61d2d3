import Procguard.ByteText
import Procguard.OptionRules

/- `parse_from_slice` down to its indices: `i` into the tokens and `j` into the bytes
   of a cluster, two `while` loops, and the slices at `j + 1` and behind the `=` of an
   option. `Options` reads the tokens and the letters as lists; `parseFromSlice_eq`
   says that the loops over the indices compute the same, within as many iterations as
   there are tokens and bytes, so that neither loop hangs and no access is out of range
   or off a boundary. What is left are the exits of the help and the version, and these
   are taken at their own tokens only. -/
namespace Procguard.Bytewise
open Text Checked

/-- The variables of the loop over the tokens. -/
structure Cursor where
  result : Args := {}
  sawSeparator : Bool := false
  i : Nat := 0
  deriving DecidableEq, Repr

/-- The variables of the loop over the bytes of a cluster. -/
structure Letters where
  result : Args
  i : Nat
  j : Nat := 1
  deriving DecidableEq, Repr

/-- `i += 1`, then `args.get(i)`. -/
def takeValue (args : List String) (o : ValueOpt) (missing : String) (r : Args) (i : Nat) :
    Run ParseExit (Args × Nat) :=
  match args[i + 1]? with
  | some val => (lift (o.set r val)).map fun r' => (r', i + 1)
  | none => .error (.stop (.error missing))

/-- The arm of a token; an inline value is cut off at its offset. -/
def classify (arg : String) : Run ParseExit Word :=
  match exactArms.lookup arg with
  | some w => .ok w
  | none => match inlineArms.find? fun arm => startsWith arg arm.1 with
    | some (_, n, o) => (sliceFrom arg.toList n).map fun val => .inline o (String.ofList val)
    | none =>
      if startsWith arg "--" then .ok .unknownLong
      else if startsWith arg "-" && 1 < arg.utf8ByteSize then .ok .short
      else .ok .positional

/-- The arms of the letters other than `h` and `V`: a flag, or an option whose value is the
    rest of the cluster (`break`) or else the next token. -/
def letterArm (args : List String) (s : String) (c : Letters) (letter : Char) :
    Run ParseExit (ForInStep Letters) :=
  match shortFlag letter with
  | some f => .ok (.yield { c with result := f.set c.result, j := c.j + 1 })
  | none => match shortValue letter with
    | some (o, missing) =>
      if c.j + 1 < (asBytes s.toList).length then do
        let val ← sliceFrom s.toList (c.j + 1)
        let r ← lift (o.set c.result (String.ofList val))
        .ok (.done { c with result := r })
      else do
        let (r, i) ← takeValue args o missing c.result c.i
        .ok (.yield { result := r, i, j := c.j + 1 })
    | none => .error (.stop (.error s!"unknown option: -{letter}"))

/-- The letter at byte `j`. -/
def clusterLetter (args : List String) (s : String) (c : Letters) :
    Run ParseExit (ForInStep Letters) := do
  let bytes := asBytes s.toList
  let b ← index bytes c.j
  match b.toChar with
  | 'h' =>
    if bytes.length = 2 then .error (.stop .help)
    else .error (.stop (.error "-h must be used alone, not in a cluster"))
  | 'V' =>
    if bytes.length = 2 then .error (.stop .version)
    else .error (.stop (.error "-V must be used alone, not in a cluster"))
  | letter => letterArm args s c letter

/-- `while j < bytes.len()`. -/
def cluster (args : List String) (s : String) (r : Args) (i : Nat) :
    Run ParseExit (Args × Nat) :=
  let len := (asBytes s.toList).length
  (whileLoop (fun c => decide (c.j < len)) (clusterLetter args s) len { result := r, i }).map
    fun c => (c.result, c.i)

/-- The `match` on the token at `i`: the arguments, and the last token that was taken. -/
def readOption (args : List String) (r : Args) (i : Nat) (arg : String) :
    Run ParseExit (Args × Nat) := do
  match ← classify arg with
  | .help => .error (.stop .help)
  | .version => .error (.stop .version)
  | .flag f => .ok (f.set r, i)
  | .value o missing => takeValue args o missing r i
  | .inline o val => (lift (o.set r val)).map fun r' => (r', i)
  | .unknownLong => .error (.stop (.error s!"unknown option: {arg}"))
  | .short =>
    if r.duration.isSome || secondIsDigit arg then .ok (r.positional arg, i)
    else cluster args arg r i
  | .positional => .ok (r.positional arg, i)

/-- One iteration, at the token `args[i]`. -/
def parseToken (args : List String) (c : Cursor) : Run ParseExit (ForInStep Cursor) := do
  let arg ← index args c.i
  let r := c.result
  if c.sawSeparator then
    if r.command.isNone then
      .ok (.yield { c with result := { r with command := some arg }, i := c.i + 1 })
    else .ok (.yield { c with result := { r with args := r.args ++ [arg] }, i := c.i + 1 })
  else if arg = "--" then .ok (.yield { c with sawSeparator := true, i := c.i + 1 })
  else if r.command.isSome then
    .ok (.yield { c with result := { r with args := r.args ++ [arg] }, i := c.i + 1 })
  else do
    let (r, i) ← readOption args r c.i arg
    .ok (.yield { c with result := r, i := i + 1 })

/-- `while i < args.len()`, then the check for conflicts. -/
def parseFromSlice (args : List String) : Run ParseExit Args := do
  let c ← whileLoop (fun c => decide (c.i < args.length)) (parseToken args) args.length {}
  if c.result.verbose && c.result.quiet then
    .error (.stop (.error "-v/--verbose cannot be used with -q/--quiet"))
  else .ok c.result

/-! ## Bytes and letters -/

theorem leadByte_eq (c : Char) : leadByte c = (firstByte c).toChar := by
  have hmax : c.toNat < 0x110000 := by
    rcases c.valid with h | h
    · exact Nat.lt_trans h (by omega)
    · exact h.2
  apply Char.toNat_inj.mp
  rw [show (firstByte c).toChar.toNat = (firstByte c).toNat from rfl, toNat_firstByte]
  unfold leadByte
  split_ifs
  · rfl
  all_goals
    rw [Char.toNat_ofNat, if_pos]
    exact .inl (by omega)

theorem shortFlag_ascii {c : Char} {f : Flag} (h : shortFlag c = some f) : c.toNat < 0x80 := by
  unfold shortFlag at h
  split at h
  all_goals first | decide | cases h

theorem shortValue_ascii {c : Char} {p : ValueOpt × String} (h : shortValue c = some p) :
    c.toNat < 0x80 := by
  unfold shortValue at h
  split at h
  all_goals first | decide | cases h

/-- A byte is the letter it begins, or neither of them is an ASCII one. -/
theorem leadByte_cases (d : Char) :
    (d.toNat < 0x80 ∧ leadByte d = d) ∨ (0x80 ≤ d.toNat ∧ 0x80 ≤ (leadByte d).toNat) := by
  rcases Nat.lt_or_ge d.toNat 0x80 with hlow | hhigh
  · exact .inl ⟨hlow, if_pos hlow⟩
  · have hbyte := le_firstByte hhigh
    rw [← leadByte_eq] at hbyte
    exact .inr ⟨hhigh, by omega⟩

theorem shortFlag_wide {c : Char} (h : 0x80 ≤ c.toNat) : shortFlag c = none := by
  cases hf : shortFlag c with
  | none => rfl
  | some f => exact absurd (shortFlag_ascii hf) (Nat.not_lt.mpr h)

theorem shortValue_wide {c : Char} (h : 0x80 ≤ c.toNat) : shortValue c = none := by
  cases hv : shortValue c with
  | none => rfl
  | some p => exact absurd (shortValue_ascii hv) (Nat.not_lt.mpr h)

theorem shortFlag_leadByte (d : Char) : shortFlag (leadByte d) = shortFlag d := by
  rcases leadByte_cases d with ⟨-, heq⟩ | ⟨hd, hbyte⟩
  · rw [heq]
  · rw [shortFlag_wide hd, shortFlag_wide hbyte]

theorem shortValue_leadByte (d : Char) : shortValue (leadByte d) = shortValue d := by
  rcases leadByte_cases d with ⟨-, heq⟩ | ⟨hd, hbyte⟩
  · rw [heq]
  · rw [shortValue_wide hd, shortValue_wide hbyte]

/-- The offset of an inline value is where the name and its `=` end. -/
theorem classify_eq (arg : String) : classify arg = .ok (Procguard.classify arg) := by
  unfold classify Procguard.classify
  cases exactArms.lookup arg with
  | some w => rfl
  | none =>
    cases harm : inlineArms.find? fun arm => startsWith arg arm.1 with
    | none =>
      dsimp only
      split_ifs <;> rfl
    | some arm =>
      obtain ⟨name, n, o⟩ := arm
      have hoff : String.utf8Len name.toList = n ∧ name.toList.length = n :=
        (show ∀ arm ∈ inlineArms, String.utf8Len arm.1.toList = arm.2.1 ∧
          arm.1.toList.length = arm.2.1 by decide +kernel) _ (List.mem_of_find?_eq_some harm)
      have hstart : startsWith arg name = true :=
        List.find?_some (p := fun arm : String × Nat × ValueOpt => startsWith arg arm.1) harm
      obtain ⟨val, hval⟩ := startsWith_iff.mp hstart
      dsimp only
      have hslice : (sliceFrom arg.toList n : Run ParseExit _) = .ok val := by
        rw [← hval, ← hoff.1]
        exact sliceFrom_append
      have hdrop : dropChars arg n = String.ofList val := by
        rw [dropChars, ← hval, ← hoff.2, List.drop_left]
      rw [hslice, hdrop]
      rfl

/-! ## The tokens behind an index -/

/-- The index of the last token taken, when `rest` are left. -/
def back (args : List String) (p : Args × List String) : Args × Nat :=
  (p.1, args.length - (p.2.length + 1))

theorem back_drop {args : List String} {i : Nat} (h : i < args.length) (r : Args) :
    back args (r, args.drop (i + 1)) = (r, i) := by
  unfold back
  rw [List.length_drop]
  congr 1
  omega

theorem takeValue_eq (args : List String) (i : Nat) (o : ValueOpt) (missing : String)
    (r : Args) : takeValue args o missing r i =
      lift ((Procguard.takeValue o missing r (args.drop (i + 1))).map (back args)) := by
  unfold takeValue
  cases hval : args[i + 1]? with
  | none =>
    rw [List.drop_eq_nil_of_le (List.getElem?_eq_none_iff.mp hval)]
    rfl
  | some val =>
    obtain ⟨hlt, hget⟩ := List.getElem?_eq_some_iff.mp hval
    rw [List.drop_eq_getElem_cons hlt, hget, Procguard.takeValue]
    dsimp only
    cases o.set r val with
    | error e => rfl
    | ok r' =>
      show _ = lift (.ok (back args (r', args.drop (i + 1 + 1))))
      rw [back_drop hlt]
      rfl

theorem set_eq {args : List String} {i : Nat} (h : i < args.length) (o : ValueOpt) (val : String)
    (r : Args) : (lift (o.set r val)).map (fun r' => (r', i)) =
      lift (((o.set r val).map fun r' => (r', args.drop (i + 1))).map (back args)) := by
  cases o.set r val with
  | error e => rfl
  | ok r' =>
    show _ = lift (.ok (back args (r', args.drop (i + 1))))
    rw [back_drop h]
    rfl

/-! ## The loop over a cluster -/

/-- The letters from byte `j` on. -/
def lettersFrom (s : String) (j : Nat) : List Char := ((split? s.toList j).map Prod.snd).getD []

/-- `j` is between two letters of the cluster, and `i` is a token. -/
def Letters.At (args : List String) (s : String) (c : Letters) : Prop :=
  c.i < args.length ∧ ∃ before letters : List Char, s.toList = before ++ letters ∧
    String.utf8Len before = c.j

/-- What the letters left to read come to. -/
def clusterRest (args : List String) (s : String) (c : Letters) : Run ParseExit (Args × Nat) :=
  lift ((Procguard.cluster s (lettersFrom s c.j) c.result (args.drop (c.i + 1))).map (back args))

theorem lettersFrom_append {s : String} {before letters : List Char}
    (h : s.toList = before ++ letters) : lettersFrom s (String.utf8Len before) = letters := by
  unfold lettersFrom
  rw [h, split?_append]
  rfl

theorem takeValue_next {args : List String} {o : ValueOpt} {missing : String} {r r' : Args}
    {i i' : Nat} (h : takeValue args o missing r i = .ok (r', i')) :
    i' = i + 1 ∧ i' < args.length := by
  unfold takeValue at h
  cases hval : args[i + 1]? with
  | none => rw [hval] at h; cases h
  | some val =>
    rw [hval] at h
    dsimp only at h
    obtain ⟨hlt, -⟩ := List.getElem?_eq_some_iff.mp hval
    cases hset : o.set r val with
    | error e => rw [hset] at h; cases h
    | ok r₁ =>
      rw [hset] at h
      cases h
      exact ⟨rfl, hlt⟩

/-- What an arm that goes on does: one byte, an ASCII letter, and at most one token. -/
theorem letterArm_yield {args : List String} {s : String} {c c' : Letters} {letter : Char}
    (h : letterArm args s c letter = .ok (.yield c')) :
    c'.j = c.j + 1 ∧ letter.toNat < 0x80 ∧ (c.i < args.length → c'.i < args.length) := by
  unfold letterArm at h
  cases hf : shortFlag letter with
  | some f =>
    rw [hf] at h
    cases h
    exact ⟨rfl, shortFlag_ascii hf, id⟩
  | none =>
    cases hv : shortValue letter with
    | none => rw [hf, hv] at h; cases h
    | some p =>
      obtain ⟨o, missing⟩ := p
      rw [hf, hv] at h
      dsimp only at h
      split at h
      · -- an embedded value ends the loop
        obtain ⟨val, -, h⟩ := bind_eq_ok.mp h
        obtain ⟨r, -, h⟩ := bind_eq_ok.mp h
        cases h
      · obtain ⟨⟨r, i⟩, ht, h⟩ := bind_eq_ok.mp h
        cases h
        exact ⟨rfl, shortValue_ascii hv, fun _ => (takeValue_next ht).2⟩

theorem clusterLetter_yield {args : List String} {s : String} {c c' : Letters}
    (h : clusterLetter args s c = .ok (.yield c')) :
    ∃ b, index (asBytes s.toList) c.j = (.ok b : Run ParseExit UInt8) ∧
      letterArm args s c b.toChar = .ok (.yield c') := by
  unfold clusterLetter at h
  obtain ⟨b, hb, h⟩ := bind_eq_ok.mp h
  refine ⟨b, hb, ?_⟩
  split at h
  · split at h <;> cases h
  · split at h <;> cases h
  · exact h

section
variable {args : List String} {s : String} {c : Letters} {before letters : List Char} {d : Char}

/-- Behind an ASCII letter the next one begins. -/
theorem split_next (hs : s.toList = before ++ d :: letters) (hj : String.utf8Len before = c.j)
    (hlow : d.toNat < 0x80) :
    s.toList = (before ++ [d]) ++ letters ∧ String.utf8Len (before ++ [d]) = c.j + 1 := by
  rw [hs, List.append_cons, String.utf8Len_append, hj, String.utf8Len_cons, utf8Size_ascii hlow]
  exact ⟨rfl, rfl⟩

/-- An option takes the rest of the cluster, cut off at a boundary, or the next token. -/
theorem letterArm_value (hi : c.i < args.length) (hs : s.toList = before ++ letters)
    (hj : String.utf8Len before = c.j + 1) {letter : Char} {o : ValueOpt} {missing : String}
    (hf : shortFlag letter = none) (hv : shortValue letter = some (o, missing)) :
    letterArm args s c letter >>= afterStep (fun c => (c.result, c.i)) (clusterRest args s) =
      lift ((if letters.isEmpty then Procguard.takeValue o missing c.result (args.drop (c.i + 1))
        else (o.set c.result (String.ofList letters)).map
          fun r' => (r', args.drop (c.i + 1))).map (back args)) := by
  have hlen : (asBytes s.toList).length = c.j + 1 + String.utf8Len letters := by
    rw [length_asBytes, hs, String.utf8Len_append, hj]
  unfold letterArm
  rw [hf, hv]
  dsimp only
  rw [hlen]
  cases letters with
  | nil =>
    rw [if_neg (by simp), if_pos (show ([] : List Char).isEmpty = true from rfl), ← takeValue_eq]
    cases ht : takeValue args o missing c.result c.i with
    | error e => rfl
    | ok p =>
      -- nothing is left of the cluster: the loop is about to end
      obtain ⟨r', i'⟩ := p
      obtain ⟨-, hi'⟩ := takeValue_next ht
      have hend : lettersFrom s (c.j + 1) = [] := by
        rw [← hj]
        exact lettersFrom_append hs
      rw [ok_bind, ok_bind, afterStep, clusterRest, hend]
      show lift (.ok (back args (r', args.drop (i' + 1)))) = _
      rw [back_drop hi']
      rfl
  | cons x letters =>
    have hpos := x.utf8Size_pos
    have hval : (sliceFrom s.toList (c.j + 1) : Run ParseExit _) = .ok (x :: letters) := by
      rw [hs, ← hj]
      exact sliceFrom_append
    rw [if_pos (by rw [String.utf8Len_cons]; omega), if_neg (by simp), hval, ← set_eq hi, ok_bind]
    cases o.set c.result (String.ofList (x :: letters)) with
    | error e => rfl
    | ok r' => rfl

/-- What an iteration does comes to what the letters from it on come to. -/
theorem letterArm_eq (hi : c.i < args.length) (hs : s.toList = before ++ d :: letters)
    (hj : String.utf8Len before = c.j) (hh : d ≠ 'h') (hV : d ≠ 'V') :
    letterArm args s c (leadByte d) >>= afterStep (fun c => (c.result, c.i)) (clusterRest args s) =
      lift ((Procguard.cluster s (d :: letters) c.result (args.drop (c.i + 1))).map
        (back args)) := by
  have hflag := shortFlag_leadByte d
  have hvalue := shortValue_leadByte d
  rw [Procguard.cluster]
  · cases hf : shortFlag d with
    | some f =>
      obtain ⟨hs', hj'⟩ := split_next hs hj (shortFlag_ascii hf)
      have hrest : lettersFrom s (c.j + 1) = letters := by
        rw [← hj']
        exact lettersFrom_append hs'
      rw [letterArm, hflag, hf]
      dsimp only
      rw [ok_bind, afterStep, clusterRest, hrest]
    | none =>
      cases hv : shortValue d with
      | none =>
        rw [letterArm, hflag, hf, hvalue, hv]
        rfl
      | some p =>
        obtain ⟨o, missing⟩ := p
        obtain ⟨hs', hj'⟩ := split_next hs hj (shortValue_ascii hv)
        exact letterArm_value hi hs' hj' (hflag.trans hf) (hvalue.trans hv)
  · exact fun h => hh h
  · exact fun h => hV h

theorem clusterLetter_eq (hi : c.i < args.length) (hs : s.toList = before ++ d :: letters)
    (hj : String.utf8Len before = c.j) :
    clusterLetter args s c >>= afterStep (fun c => (c.result, c.i)) (clusterRest args s) =
      lift ((Procguard.cluster s (d :: letters) c.result (args.drop (c.i + 1))).map
        (back args)) := by
  have hbyte : index (asBytes s.toList) c.j = (.ok (firstByte d) : Run ParseExit UInt8) := by
    rw [hs, ← hj]
    exact index_asBytes before d letters
  unfold clusterLetter
  dsimp only
  rw [hbyte, ok_bind, length_asBytes, String.utf8Len_toList, ← leadByte_eq]
  by_cases hh : d = 'h'
  · subst hh
    rw [show leadByte 'h' = 'h' from if_pos (by decide), Procguard.cluster]
    split_ifs <;> rfl
  · by_cases hV : d = 'V'
    · subst hV
      rw [show leadByte 'V' = 'V' from if_pos (by decide), Procguard.cluster]
      split_ifs <;> rfl
    · rw [← letterArm_eq hi hs hj hh hV]
      have hne : ∀ x : Char, x.toNat < 0x80 → d ≠ x → leadByte d ≠ x := by
        intro x hx hd heq
        rcases leadByte_cases d with ⟨-, hsame⟩ | ⟨-, hbyte⟩
        · exact hd (hsame.symm.trans heq)
        · rw [heq] at hbyte
          omega
      split
      · next heq => exact absurd heq (hne 'h' (by decide) hh)
      · next heq => exact absurd heq (hne 'V' (by decide) hV)
      · rfl

end

/-- **The index into a cluster advances at every iteration.** -/
theorem clusterLetter_advances {args : List String} {s : String} {c c' : Letters}
    (h : clusterLetter args s c = .ok (.yield c')) : c.j < c'.j := by
  obtain ⟨b, -, harm⟩ := clusterLetter_yield h
  rw [(letterArm_yield harm).1]
  exact Nat.lt_succ_self c.j

section
variable {args : List String} {s : String} {c : Letters}

/-- A byte of the cluster that is left begins a letter. -/
theorem Letters.At.letter (h : c.At args s) (hj : c.j < (asBytes s.toList).length) :
    ∃ before d letters, s.toList = before ++ d :: letters ∧ String.utf8Len before = c.j := by
  obtain ⟨-, before, letters, hs, hbefore⟩ := h
  cases letters with
  | nil =>
    rw [length_asBytes, hs, List.append_nil, hbefore] at hj
    exact absurd hj (Nat.lt_irrefl _)
  | cons d letters => exact ⟨before, d, letters, hs, hbefore⟩

theorem Letters.At.next {c' : Letters} (h : c.At args s) (hj : c.j < (asBytes s.toList).length)
    (hyield : clusterLetter args s c = .ok (.yield c')) : c'.At args s := by
  obtain ⟨before, d, letters, hs, hbefore⟩ := h.letter hj
  obtain ⟨b, hb, harm⟩ := clusterLetter_yield hyield
  obtain ⟨hnext, hlow, hi⟩ := letterArm_yield harm
  rw [hs, ← hbefore, index_asBytes] at hb
  cases hb
  have hascii : d.toNat < 0x80 := by
    by_contra hwide
    have := le_firstByte (Nat.le_of_not_lt hwide)
    omega
  refine ⟨hi h.1, before ++ [d], letters, ?_, ?_⟩
  · rw [hs, List.append_cons]
  · rw [hnext, String.utf8Len_append, hbefore, String.utf8Len_cons, utf8Size_ascii hascii]
    rfl

end

/-- The loop reads the letters of the token, in no more iterations than it has bytes. -/
theorem cluster_eq {args : List String} {s : String} {i : Nat} (hi : i < args.length)
    {dash : Char} {letters : List Char} (hs : s.toList = dash :: letters)
    (hdash : dash.toNat < 0x80) (r : Args) :
    cluster args s r i =
      lift ((Procguard.cluster s letters r (args.drop (i + 1))).map (back args)) := by
  have hsplit : s.toList = [dash] ++ letters := hs
  -- the dash is one byte, so the letters begin at index 1
  have hone : String.utf8Len [dash] = 1 := by
    rw [String.utf8Len_cons, utf8Size_ascii hdash]
    rfl
  have hstart : clusterRest args s { result := r, i } =
      lift ((Procguard.cluster s letters r (args.drop (i + 1))).map (back args)) := by
    rw [clusterRest, show lettersFrom s 1 = letters by
      rw [← hone]; exact lettersFrom_append hsplit]
  unfold cluster
  dsimp only
  rw [← hstart]
  -- each turn of the loop takes a letter: the bytes that are left decrease
  apply whileLoop_eq (Letters.At args s) (fun c => (asBytes s.toList).length - c.j)
  · intro c _ hc
    have := of_decide_eq_true hc
    omega
  · -- at the end no letter is left
    intro c hat hc
    obtain ⟨hlt, before, letters, hsplit, hj⟩ := hat
    have hnot := of_decide_eq_false hc
    rw [length_asBytes, hsplit, String.utf8Len_append, hj] at hnot
    have hnil : letters = [] := String.utf8Len_eq_zero.mp (by omega)
    rw [clusterRest, ← hj, lettersFrom_append hsplit, hnil, Procguard.cluster]
    show lift (.ok (back args (c.result, args.drop (c.i + 1)))) = _
    rw [back_drop hlt]
    rfl
  · intro c hat hc
    obtain ⟨before, d, letters, hsplit, hj⟩ := hat.letter (of_decide_eq_true hc)
    rw [clusterLetter_eq hat.1 hsplit hj, clusterRest, ← hj, lettersFrom_append hsplit]
  · intro c c' hat hc hyield
    have hless := of_decide_eq_true hc
    have := clusterLetter_advances hyield
    exact ⟨hat.next hless hyield, by omega⟩
  · exact ⟨hi, [dash], letters, hsplit, hone⟩
  · exact Nat.sub_le _ _

/-! ## The loop over the tokens -/

theorem readOption_eq {args : List String} {i : Nat} (hi : i < args.length) (r : Args)
    (arg : String) : readOption args r i arg =
      lift ((Procguard.readOption r arg (args.drop (i + 1))).map (back args)) := by
  have hkeep : ∀ r' : Args, (.ok (r', i) : Run ParseExit _) =
      lift (.ok (back args (r', args.drop (i + 1)))) := by
    intro r'
    rw [back_drop hi]
    rfl
  unfold readOption Procguard.readOption
  rw [classify_eq, ok_bind]
  cases hw : Procguard.classify arg with
  | help => rfl
  | version => rfl
  | unknownLong => rfl
  | flag f => exact hkeep _
  | positional => exact hkeep _
  | value o missing => exact takeValue_eq args i o missing r
  | inline o val => exact set_eq hi o val r
  | short =>
    obtain ⟨letters, hletters⟩ := classify_short hw
    dsimp only
    by_cases hpos : (r.duration.isSome || secondIsDigit arg) = true
    · rw [if_pos hpos, if_pos hpos]
      exact hkeep _
    · rw [if_neg hpos, if_neg hpos, cluster_eq hi hletters (by decide), hletters]
      rfl

/-- The cursor of a state of the loop: the index is where the rest begins. -/
def cursorOf (args : List String) (st : ParseState) : Cursor :=
  { result := st.result, sawSeparator := st.sawSeparator, i := args.length - st.rest.length }

theorem cursorOf_drop {args : List String} {i : Nat} (h : i < args.length) (r : Args) (sep : Bool) :
    cursorOf args ⟨r, sep, args.drop (i + 1)⟩ = ⟨r, sep, i + 1⟩ := by
  unfold cursorOf
  rw [List.length_drop]
  congr 1
  omega

theorem readOption_length {r r' : Args} {arg : String} {rest rest' : List String}
    (h : Procguard.readOption r arg rest = .ok (r', rest')) : rest'.length ≤ rest.length := by
  rcases readOption_cases h with ⟨-, -, hrest⟩ | ⟨-, -, hleft⟩
  · rw [hrest]
  · exact hleft.suffix.length_le

/-- One iteration, over the index and over the tokens. -/
theorem parseToken_eq {args : List String} {c : Cursor} (hi : c.i < args.length) :
    parseToken args c =
      lift ((Procguard.parseToken ⟨c.result, c.sawSeparator, args.drop c.i⟩ args[c.i]
        (args.drop (c.i + 1))).map fun st => .yield (cursorOf args st)) := by
  have hkeep : ∀ (r : Args) (sep : Bool),
      (.ok (.yield ⟨r, sep, c.i + 1⟩) : Run ParseExit (ForInStep Cursor)) =
        lift (.ok (.yield (cursorOf args ⟨r, sep, args.drop (c.i + 1)⟩))) := by
    intro r sep
    rw [cursorOf_drop hi]
    rfl
  unfold parseToken Procguard.parseToken
  rw [index_ok (List.getElem?_eq_getElem hi), ok_bind]
  dsimp only
  generalize args[c.i] = arg
  by_cases hsep : c.sawSeparator = true
  · rw [if_pos hsep, if_pos hsep]
    by_cases hcmd : c.result.command.isNone = true
    · rw [if_pos hcmd, if_pos hcmd]
      exact hkeep _ _
    · rw [if_neg hcmd, if_neg hcmd]
      exact hkeep _ _
  · rw [if_neg hsep, if_neg hsep]
    by_cases harg : arg = "--"
    · rw [if_pos harg, if_pos harg]
      exact hkeep _ _
    · rw [if_neg harg, if_neg harg]
      by_cases hcmd : c.result.command.isSome = true
      · rw [if_pos hcmd, if_pos hcmd]
        exact hkeep _ _
      · rw [if_neg hcmd, if_neg hcmd, readOption_eq hi]
        cases hread : Procguard.readOption c.result arg (args.drop (c.i + 1)) with
        | error e => rfl
        | ok p =>
          -- the token after the last one taken is where the rest begins
          obtain ⟨r', rest'⟩ := p
          have hlen := readOption_length hread
          rw [List.length_drop] at hlen
          have hnext : args.length - (rest'.length + 1) + 1 = args.length - rest'.length := by omega
          show (.ok (.yield ⟨r', c.sawSeparator, args.length - (rest'.length + 1) + 1⟩) :
            Run ParseExit (ForInStep Cursor)) = _
          rw [hnext]
          rfl

/-- What an iteration that goes on does: the state of the loop over the tokens. -/
theorem parseToken_yield {args : List String} {c c' : Cursor}
    (h : parseToken args c = .ok (.yield c')) : ∃ st', c' = cursorOf args st' ∧
      c.i < args.length ∧ st'.rest <:+ args.drop (c.i + 1) := by
  rcases Nat.lt_or_ge c.i args.length with hi | hi
  · rw [parseToken_eq hi] at h
    cases ht : Procguard.parseToken ⟨c.result, c.sawSeparator, args.drop c.i⟩ args[c.i]
      (args.drop (c.i + 1)) with
    | error e => rw [ht] at h; cases h
    | ok st' =>
      rw [ht] at h
      cases h
      exact ⟨st', rfl, hi, (parseToken_taken ht).suffix⟩
  · -- past the end there is no token
    unfold parseToken index at h
    rw [List.getElem?_eq_none hi] at h
    cases h

/-- **The index into the tokens advances at every iteration**, and never past the end. -/
theorem parseToken_advances {args : List String} {c c' : Cursor}
    (h : parseToken args c = .ok (.yield c')) : c.i < c'.i ∧ c'.i ≤ args.length := by
  obtain ⟨st', rfl, hi, hrest⟩ := parseToken_yield h
  have hlen := hrest.length_le
  rw [List.length_drop] at hlen
  constructor
  · show c.i < args.length - st'.rest.length
    omega
  · exact Nat.sub_le _ _

/-- What the tokens left to read come to. -/
def tokensRest (args : List String) (c : Cursor) : Run ParseExit Args :=
  lift ((parseTokens ⟨c.result, c.sawSeparator, args.drop c.i⟩).map ParseState.result)

theorem parseToken_step {args : List String} {c : Cursor} (hi : c.i < args.length) :
    parseToken args c >>= afterStep Cursor.result (tokensRest args) = tokensRest args c := by
  rw [parseToken_eq hi, tokensRest, parseTokens_cons (List.drop_eq_getElem_cons hi)]
  cases ht : Procguard.parseToken ⟨c.result, c.sawSeparator, args.drop c.i⟩ args[c.i]
    (args.drop (c.i + 1)) with
  | error e => rfl
  | ok st' =>
    -- the rest is what is left of the tokens behind the new index
    have hsuffix := (parseToken_taken ht).suffix.trans (List.drop_suffix (c.i + 1) args)
    have hrest : args.drop (args.length - st'.rest.length) = st'.rest :=
      (List.suffix_iff_eq_drop.mp hsuffix).symm
    show tokensRest args (cursorOf args st') = lift ((parseTokens st').map ParseState.result)
    rw [tokensRest, cursorOf, hrest]

/-- **The loops over the indices read what the loops over the lists read**: no access is out
    of range or off a boundary, and there are iterations enough. -/
theorem parseFromSlice_eq (args : List String) :
    parseFromSlice args = lift (Procguard.parseFromSlice args) := by
  have hloop : (whileLoop (fun c => decide (c.i < args.length)) (parseToken args) args.length
      ({} : Cursor)).map Cursor.result = tokensRest args {} := by
    -- each turn of the loop takes a token at least
    apply whileLoop_eq (fun _ => True) (fun c => args.length - c.i)
    · intro c _ hc
      have := of_decide_eq_true hc
      omega
    · intro c _ hc
      have hge := of_decide_eq_false hc
      rw [tokensRest, parseTokens_nil (List.drop_eq_nil_of_le (Nat.le_of_not_lt hge))]
      rfl
    · intro c _ hc
      exact (parseToken_step (of_decide_eq_true hc)).symm
    · intro c c' _ hc hyield
      have := of_decide_eq_true hc
      have := parseToken_advances hyield
      exact ⟨trivial, by omega⟩
    · trivial
    · exact Nat.sub_le _ _
  replace hloop : _ = lift ((parseTokens { rest := args }).map ParseState.result) := hloop
  unfold parseFromSlice Procguard.parseFromSlice
  cases hw : whileLoop (fun c => decide (c.i < args.length)) (parseToken args) args.length
    ({} : Cursor) with
  | error e =>
    rw [hw] at hloop
    cases ht : parseTokens { rest := args } with
    | error e' => rw [ht] at hloop; cases hloop; rfl
    | ok st => rw [ht] at hloop; cases hloop
  | ok c =>
    rw [hw] at hloop
    cases ht : parseTokens { rest := args } with
    | error e' => rw [ht] at hloop; cases hloop
    | ok st =>
      rw [ht] at hloop
      have hres : c.result = st.result := Except.ok.inj hloop
      rw [ok_bind, hres]
      show _ = lift (if _ then _ else _)
      split <;> rfl

/-- **The parsers neither crash nor hang.** Without a token that asks for the help or the
    version, `parse_from_slice` returns the arguments or a `ParseError` within as many
    iterations as its loops have tokens and bytes, and at each of them an index advances;
    no text takes the parsers of values off a character boundary. -/
theorem parsers_never_fault (args : List String) (hexit : ∀ arg ∈ args, arg ∉ exitTokens)
    (input : String) :
    (∃ r : Except String Args, parseFromSlice args = r.mapError fun m => .stop (.error m)) ∧
      (∀ c c', parseToken args c = .ok (.yield c') → c.i < c'.i) ∧
      (∀ s c c', clusterLetter args s c = .ok (.yield c') → c.j < c'.j) ∧
      (∃ r, parseDuration input = lift r) ∧ (∃ r, parseMemLimit input = lift r) ∧
      (∃ r, parseSignal input = lift r) := by
  refine ⟨?_, fun c c' h => (parseToken_advances h).1, fun s c c' h => clusterLetter_advances h,
    ⟨_, parseDuration_eq input⟩, ⟨_, parseMemLimit_eq input⟩, ⟨_, parseSignal_eq input⟩⟩
  rw [parseFromSlice_eq]
  cases hp : Procguard.parseFromSlice args with
  | ok r => exact ⟨.ok r, rfl⟩
  | error e =>
    obtain ⟨message, rfl⟩ := parseFromSlice_error hp hexit
    exact ⟨.error message, rfl⟩

/-- A value cut off inside a cluster, in front of a character of two bytes. -/
theorem parsers_never_fault_wide :
    parseFromSlice ["-pfs\u00e9T", "5s", "\u00e9"] =
      .ok { preserveStatus := true, foreground := true, signal := "\u00e9T",
            duration := some "5s", command := some "\u00e9" } ∧
      ∃ r : Except String Args, parseFromSlice ["-pfs\u00e9T", "5s", "\u00e9"] =
        r.mapError fun m => .stop (.error m) :=
  ⟨by decide +kernel, (parsers_never_fault ["-pfs\u00e9T", "5s", "\u00e9"] (by decide) "").1⟩

end Procguard.Bytewise
