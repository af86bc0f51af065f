import NeurAvr.CString

/-!
# The command line parser (`NeurApp_Parser`)

`ParseInputLine` scans a NUL-terminated line once. Each byte is classified (letter, digit, blank,
`?`) and steps a machine of eight states, `PSTATE_PREAMBLE` to `PSTATE_ERROR`; a second `switch`
stores the opcode letters, upper-cased and at most `NEURAPP_CMD_CHARS` of them, and accumulates the
two `uint16_t` arguments. A `?` anywhere turns the result into `HLP`, and an error resets the
parser. `WasNewCommand` hands a parsed command out once.

`char` is signed on the AVR targets (avr-gcc without `-funsigned-char`), so the test
`' ' >= thischar` holds for every byte from `0x80` on: the scan counts those bytes as blanks.
`classify` follows the code; the grammar below is the spec's, over seven-bit bytes.

`LineShape` is the grammar the scan accepts, `ws* [ L{1,3} [ ws+ D+ [ ws+ D+ ] ] ws* ]`. The scan is
sound for it (`Reach`: every prefix the machine survives is a prefix of the grammar, by induction
from the end of the line) and complete (`scanLine_shape`: it runs every line of the grammar,
segment by segment, to an accepting state with the opcode and the arguments stored).
-/

namespace NeurAvr

/-- `NEURAPP_CMD_CHARS`. -/
def cmdChars : Nat := 3

/-- `cmd_help`: `{ 'H', 'L', 'P' }`. -/
def cmdHelp : List UInt8 := [72, 76, 80]

/-- `parse_state_t`. -/
inductive PState
  | preamble
  | opcode
  | firstgap
  | firstarg
  | secondgap
  | secondarg
  | tail
  | error
deriving Repr, DecidableEq

/-- What the classification chain of `ParseInputLine` finds: `is_letter`, `is_digit`,
`is_white`, `saw_question`, or none of them. -/
inductive CharKind
  | letter
  | digit
  | white
  | question
  | other
deriving Repr, DecidableEq

/-- The value of a byte as a signed `char`. -/
def signedChar (b : UInt8) : Int := if b.toNat < 128 then b.toNat else b.toNat - 256

/-- The classification chain, with `thischar` as the scan goes on with it
(`thischar -= 'a'; thischar += 'A';` for a lower-case letter). -/
def classify (b : UInt8) : CharKind × UInt8 :=
  let c := signedChar b
  if 97 ≤ c ∧ c ≤ 122 then (.letter, b - 97 + 65)
  else if 65 ≤ c ∧ c ≤ 90 then (.letter, b)
  else if 48 ≤ c ∧ c ≤ 57 then (.digit, b)
  else if c ≤ 32 then (.white, b)
  else if c = 63 then (.question, b)
  else (.other, b)

/-- The first `switch` of the scan. -/
def PState.next : PState → CharKind → PState
  | .preamble, k => if k = .letter then .opcode else if k = .white then .preamble else .error
  | .opcode, k => if k = .white then .firstgap else if k = .letter then .opcode else .error
  | .firstgap, k => if k = .digit then .firstarg else if k = .white then .firstgap else .error
  | .firstarg, k => if k = .white then .secondgap else if k = .digit then .firstarg else .error
  | .secondgap, k => if k = .digit then .secondarg else if k = .white then .secondgap else .error
  | .secondarg, k => if k = .white then .tail else if k = .digit then .secondarg else .error
  | .tail, k => if k = .white then .tail else .error
  | .error, _ => .error

/-- The members of `NeurApp_Parser`. -/
structure Parser where
  haveCommand : Bool
  thisCmdname : List UInt8
  thisArg1 : UInt16
  thisArg2 : UInt16
  argsfound : Int
deriving Repr, DecidableEq

/-- The members after `ResetState()`. -/
def Parser.reset : Parser := ⟨false, List.replicate cmdChars 0, 0, 0, 0⟩

/-- The members after the `?` special case: `ResetState()`, then `HLP` with no arguments. -/
def Parser.help : Parser := { Parser.reset with haveCommand := true, thisCmdname := cmdHelp }

/-- `ResetState()`. -/
def Parser.resetState (_ : Parser) : Parser := Parser.reset

/-- The loop variables of `ParseInputLine` with the members it writes. -/
structure Scan where
  state : PState
  opidx : Nat
  sawQuestion : Bool
  parser : Parser

/-- `this_arg *= 10; scratch = thischar; scratch -= '0'; this_arg += scratch;` -/
def addDigit (a : UInt16) (c : UInt8) : UInt16 := a * 10 + (c.toUInt16 - 48)

/-- One pass of the scan loop: classify the byte, step the state, then update the data. -/
def scanChar (sc : Scan) (b : UInt8) : Scan :=
  let (k, ch) := classify b
  let sc := { sc with sawQuestion := sc.sawQuestion || k == CharKind.question
                      state := sc.state.next k }
  match sc.state with
  | .opcode =>
    let p := { sc.parser with haveCommand := true }
    if sc.opidx < cmdChars then
      { sc with parser := { p with thisCmdname := p.thisCmdname.set sc.opidx ch }
                opidx := sc.opidx + 1 }
    else { sc with parser := p, state := .error }
  | .firstarg =>
    { sc with parser := { sc.parser with argsfound := 1
                                         thisArg1 := addDigit sc.parser.thisArg1 ch } }
  | .secondarg =>
    { sc with parser := { sc.parser with argsfound := 2
                                         thisArg2 := addDigit sc.parser.thisArg2 ch } }
  | _ => sc

/-- The scan loop over the bytes of a line, from the initial state. -/
def scanLine (p : Parser) (line : List UInt8) : Scan :=
  line.foldl scanChar ⟨.preamble, 0, false, p⟩

/-- `ParseInputLine(rawline)`: the parser afterwards and the result. The loop reads up to the
NUL. -/
def Parser.parseInputLine (p : Parser) (rawline : List UInt8) : Parser × Bool :=
  let sc := scanLine p.resetState (cstr rawline)
  let wasOk := sc.state != .error
  let (p, wasOk) :=
    if sc.sawQuestion then
      ({ sc.parser.resetState with haveCommand := true, thisCmdname := cmdHelp }, true)
    else (sc.parser, wasOk)
  if !wasOk then (p.resetState, false) else (p, wasOk)

/-- The output arguments of `WasNewCommand`: `cmd`, `arg1`, `arg2`, `argcount`. -/
structure CmdOut where
  cmd : List UInt8
  arg1 : UInt16
  arg2 : UInt16
  argcount : Int
deriving Repr, DecidableEq

/-- `WasNewCommand(cmd, arg1, arg2, argcount)`: the parser afterwards, the result and the
outputs, which stay as the caller passed them when there is no new command. -/
def Parser.wasNewCommand (p : Parser) (out : CmdOut) : Parser × Bool × CmdOut :=
  if p.haveCommand then
    ({ p with haveCommand := false }, true, ⟨p.thisCmdname, p.thisArg1, p.thisArg2, p.argsfound⟩)
  else (p, false, out)

/-! ### The command grammar -/

/-- A blank of the spec: a byte from `0x01` to `0x20`. -/
def isWs (b : UInt8) : Bool := 1 ≤ b.toNat && b.toNat ≤ 32

/-- An ASCII letter. -/
def isLetter (b : UInt8) : Bool :=
  (65 ≤ b.toNat && b.toNat ≤ 90) || (97 ≤ b.toNat && b.toNat ≤ 122)

/-- An ASCII digit. -/
def isDigit (b : UInt8) : Bool := 48 ≤ b.toNat && b.toNat ≤ 57

/-- The upper-case form of an ASCII letter. -/
def upcase (b : UInt8) : UInt8 := if 97 ≤ b.toNat ∧ b.toNat ≤ 122 then b - 32 else b

/-- The value of a decimal numeral. -/
def decimalValue (d : List UInt8) : Nat := d.foldl (fun n c => 10 * n + (c.toNat - 48)) 0

/-- Blanks, at least one. -/
def Gap (g : List UInt8) : Prop := g ≠ [] ∧ g.all isWs

/-- Digits, at least one. -/
def Num (d : List UInt8) : Prop := d ≠ [] ∧ d.all isDigit

/-- An opcode: one to `NEURAPP_CMD_CHARS` letters. -/
def OpWord (op : List UInt8) : Prop := op ≠ [] ∧ op.length ≤ cmdChars ∧ op.all isLetter

/-- The lines `ws* [ L{1,3} [ ws+ D+ [ ws+ D+ ] ] ws* ]`: `op` is the opcode (empty on a blank
line) and `args` are the arguments, each with the blanks before it. -/
def LineShape (l op : List UInt8) (args : List (List UInt8 × List UInt8)) : Prop :=
  ∃ w₀ w₃, l = w₀ ++ op ++ (args.map fun a => a.1 ++ a.2).flatten ++ w₃ ∧
    w₀.all isWs ∧ w₃.all isWs ∧
    (op = [] ∧ args = [] ∨ OpWord op ∧ args.length ≤ 2 ∧ ∀ a ∈ args, Gap a.1 ∧ Num a.2)

/-- The value of argument `k`, or `0` when there is none. -/
def argValue (args : List (List UInt8 × List UInt8)) (k : Nat) : Nat :=
  ((args.get? k).map fun a => decimalValue a.2).getD 0

/-- The parser after an accepted line with opcode `op` and arguments `args`: the letters
upper-cased and padded with NULs, each argument's value modulo `2 ^ 16`, and their count. -/
def Parser.ofCommand (op : List UInt8) (args : List (List UInt8 × List UInt8)) : Parser :=
  ⟨true, op.map upcase ++ List.replicate (cmdChars - op.length) 0,
    UInt16.ofNat (argValue args 0), UInt16.ofNat (argValue args 1), args.length⟩

/-! ### Classification -/

section Classify

variable {b : UInt8}

theorem byte_toNat_lt (b : UInt8) : b.toNat < 256 := b.toBitVec.isLt

theorem sub_97_add_65 (b : UInt8) : b - 97 + 65 = b - 32 := by
  obtain ⟨v⟩ := b
  show UInt8.mk (v - 97 + 65) = UInt8.mk (v - 32)
  congr 1
  bv_omega

theorem signedChar_of_lt (h : b.toNat < 128) : signedChar b = b.toNat := if_pos h

theorem classify_ws (h : isWs b) : classify b = (.white, b) := by
  simp only [isWs, Bool.and_eq_true, decide_eq_true_eq] at h
  unfold classify
  rw [signedChar_of_lt (by omega), if_neg (by omega), if_neg (by omega), if_neg (by omega),
    if_pos (by omega)]

theorem classify_letter (h : isLetter b) : classify b = (.letter, upcase b) := by
  simp only [isLetter, Bool.or_eq_true, Bool.and_eq_true, decide_eq_true_eq] at h
  unfold classify upcase
  rw [signedChar_of_lt (by omega), sub_97_add_65]
  by_cases hl : 97 ≤ b.toNat ∧ b.toNat ≤ 122
  · rw [if_pos (by omega), if_pos hl]
  · rw [if_neg (by omega), if_pos (by omega), if_neg hl]

theorem classify_digit (h : isDigit b) : classify b = (.digit, b) := by
  simp only [isDigit, Bool.and_eq_true, decide_eq_true_eq] at h
  unfold classify
  rw [signedChar_of_lt (by omega), if_neg (by omega), if_neg (by omega), if_pos (by omega)]

theorem classify_high (h : 128 ≤ b.toNat) : (classify b).1 = .white := by
  have := byte_toNat_lt b
  unfold classify
  rw [show signedChar b = b.toNat - 256 from if_neg (by omega), if_neg (by omega),
    if_neg (by omega), if_neg (by omega), if_pos (by omega)]

theorem classify_question_iff : (classify b).1 = .question ↔ b = 63 := by
  constructor
  · intro h
    have := byte_toNat_lt b
    apply UInt8.toNat.inj
    show b.toNat = 63
    dsimp only [classify] at h
    split_ifs at h
    unfold signedChar at *
    split_ifs at * <;> omega
  · rintro rfl; rfl

theorem classify_kind (h : b.toNat < 128) (h0 : b ≠ 0) :
    ((classify b).1 = .letter → isLetter b) ∧ ((classify b).1 = .digit → isDigit b) ∧
      ((classify b).1 = .white → isWs b) := by
  have h0' : b.toNat ≠ 0 := fun e => h0 (UInt8.toNat.inj e)
  simp only [classify, signedChar_of_lt h, isLetter, isDigit, isWs]
  split_ifs <;> simp <;> omega

end Classify

/-! ### The control of the scan -/

/-- The state and the opcode index after a byte of kind `k`: the first `switch`, then the
overflow test of the second. -/
def ctrl (q : PState) (i : Nat) (k : CharKind) : PState × Nat :=
  if q.next k = .opcode then (if i < cmdChars then (.opcode, i + 1) else (.error, i))
  else (q.next k, i)

theorem scanChar_ctrl (sc : Scan) (b : UInt8) :
    ((scanChar sc b).state, (scanChar sc b).opidx) = ctrl sc.state sc.opidx (classify b).1 := by
  unfold scanChar ctrl
  generalize classify b = x
  obtain ⟨k, ch⟩ := x
  cases hq : sc.state.next k <;> simp [hq]
  split_ifs <;> rfl

theorem scanChar_sawQuestion (sc : Scan) (b : UInt8) :
    (scanChar sc b).sawQuestion = (sc.sawQuestion || (classify b).1 == .question) := by
  unfold scanChar
  generalize classify b = x
  obtain ⟨k, ch⟩ := x
  cases hq : sc.state.next k <;> simp [hq]
  split_ifs <;> rfl

/-! ### Soundness: the prefixes the scan survives -/

/-- Blanks, then an opcode. -/
def OpPrefix (v : List UInt8) : Prop := ∃ w op, v = w ++ op ∧ w.all isWs ∧ OpWord op

/-- An opcode prefix, then blanks and a first argument. -/
def Arg1Prefix (u : List UInt8) : Prop := ∃ v g d, u = v ++ g ++ d ∧ OpPrefix v ∧ Gap g ∧ Num d

/-- A first-argument prefix, then blanks and a second argument. -/
def Arg2Prefix (u : List UInt8) : Prop := ∃ v g d, u = v ++ g ++ d ∧ Arg1Prefix v ∧ Gap g ∧ Num d

/-- The prefixes of a line after which the scan is in state `q` with `i` opcode letters stored,
read off the grammar. -/
def Reach : PState → Nat → List UInt8 → Prop
  | .preamble, i, u => i = 0 ∧ u.all isWs
  | .opcode, i, u => ∃ w op, u = w ++ op ∧ w.all isWs ∧ OpWord op ∧ op.length = i
  | .firstgap, _, u => ∃ v g, u = v ++ g ∧ OpPrefix v ∧ Gap g
  | .firstarg, _, u => Arg1Prefix u
  | .secondgap, _, u => ∃ v g, u = v ++ g ∧ Arg1Prefix v ∧ Gap g
  | .secondarg, _, u => Arg2Prefix u
  | .tail, _, u => ∃ v g, u = v ++ g ∧ Arg2Prefix v ∧ Gap g
  | .error, _, _ => True

section Segments

variable {c : UInt8}

theorem Gap.snoc {g : List UInt8} (h : Gap g) (hc : isWs c) : Gap (g ++ [c]) :=
  ⟨by simp, by simp [h.2, hc]⟩

theorem Num.snoc {d : List UInt8} (h : Num d) (hc : isDigit c) : Num (d ++ [c]) :=
  ⟨by simp, by simp [h.2, hc]⟩

theorem gap_singleton (hc : isWs c) : Gap [c] := ⟨by simp, by simp [hc]⟩

theorem num_singleton (hc : isDigit c) : Num [c] := ⟨by simp, by simp [hc]⟩

end Segments

theorem Reach.snoc {q : PState} {i : Nat} {u : List UInt8} (h : Reach q i u) {c : UInt8}
    (hl : (classify c).1 = .letter → isLetter c) (hd : (classify c).1 = .digit → isDigit c)
    (hw : (classify c).1 = .white → isWs c) :
    Reach (ctrl q i (classify c).1).1 (ctrl q i (classify c).1).2 (u ++ [c]) := by
  generalize (classify c).1 = k at hl hd hw
  cases q <;> cases k <;> simp only [ctrl, PState.next, reduceCtorEq, ↓reduceIte, if_false]
  case preamble.letter =>
    obtain ⟨rfl, hu⟩ := h
    exact ⟨u, [c], rfl, hu, ⟨by simp, by simp [cmdChars], by simp [hl rfl]⟩, rfl⟩
  case preamble.white => exact ⟨h.1, by simp [h.2, hw rfl]⟩
  case opcode.letter =>
    split_ifs with hi
    · obtain ⟨w, op, rfl, hw0, ⟨-, -, hop⟩, rfl⟩ := h
      exact ⟨w, op ++ [c], by simp, hw0, ⟨by simp, by simpa using hi, by simp [hop, hl rfl]⟩,
        by simp⟩
    · trivial
  case opcode.white =>
    obtain ⟨w, op, rfl, hw0, hop, -⟩ := h
    exact ⟨w ++ op, [c], rfl, ⟨w, op, rfl, hw0, hop⟩, gap_singleton (hw rfl)⟩
  case firstgap.white =>
    obtain ⟨v, g, rfl, hv, hg⟩ := h
    exact ⟨v, g ++ [c], by simp, hv, hg.snoc (hw rfl)⟩
  case firstgap.digit =>
    obtain ⟨v, g, rfl, hv, hg⟩ := h
    exact ⟨v, g, [c], rfl, hv, hg, num_singleton (hd rfl)⟩
  case firstarg.digit =>
    obtain ⟨v, g, d, rfl, hv, hg, hdd⟩ := h
    exact ⟨v, g, d ++ [c], by simp, hv, hg, hdd.snoc (hd rfl)⟩
  case firstarg.white => exact ⟨u, [c], rfl, h, gap_singleton (hw rfl)⟩
  case secondgap.white =>
    obtain ⟨v, g, rfl, hv, hg⟩ := h
    exact ⟨v, g ++ [c], by simp, hv, hg.snoc (hw rfl)⟩
  case secondgap.digit =>
    obtain ⟨v, g, rfl, hv, hg⟩ := h
    exact ⟨v, g, [c], rfl, hv, hg, num_singleton (hd rfl)⟩
  case secondarg.digit =>
    obtain ⟨v, g, d, rfl, hv, hg, hdd⟩ := h
    exact ⟨v, g, d ++ [c], by simp, hv, hg, hdd.snoc (hd rfl)⟩
  case secondarg.white => exact ⟨u, [c], rfl, h, gap_singleton (hw rfl)⟩
  case tail.white =>
    obtain ⟨v, g, rfl, hv, hg⟩ := h
    exact ⟨v, g ++ [c], by simp, hv, hg.snoc (hw rfl)⟩
  all_goals trivial

theorem scanLine_reach (p : Parser) (u : List UInt8) (h7 : ∀ b ∈ u, b.toNat < 128)
    (h0 : ∀ b ∈ u, b ≠ 0) : Reach (scanLine p u).state (scanLine p u).opidx u := by
  induction u using List.reverseRecOn with
  | nil => exact ⟨rfl, rfl⟩
  | append_singleton u c ih =>
    have hk := classify_kind (h7 c (by simp)) (h0 c (by simp))
    have hu := (ih (fun b hb => h7 b (by simp [hb])) (fun b hb => h0 b (by simp [hb]))).snoc
      hk.1 hk.2.1 hk.2.2
    have hc := scanChar_ctrl (scanLine p u) c
    rw [scanLine, List.foldl_append, List.foldl_cons, List.foldl_nil, ← scanLine]
    rwa [← hc] at hu

theorem Reach.shape {q : PState} {i : Nat} {u : List UInt8} (h : Reach q i u) (hq : q ≠ .error) :
    ∃ op args, LineShape u op args := by
  cases q
  case preamble => exact ⟨[], [], u, [], by simp, h.2, rfl, .inl ⟨rfl, rfl⟩⟩
  case opcode =>
    obtain ⟨w, op, rfl, hw, hop, -⟩ := h
    exact ⟨op, [], w, [], by simp, hw, rfl, .inr ⟨hop, by simp, by simp⟩⟩
  case firstgap =>
    obtain ⟨_, g, rfl, ⟨w, op, rfl, hw, hop⟩, hg⟩ := h
    exact ⟨op, [], w, g, by simp, hw, hg.2, .inr ⟨hop, by simp, by simp⟩⟩
  case firstarg =>
    obtain ⟨_, g, d, rfl, ⟨w, op, rfl, hw, hop⟩, hg, hd⟩ := h
    exact ⟨op, [(g, d)], w, [], by simp, hw, rfl, .inr ⟨hop, by simp, by simp [hg, hd]⟩⟩
  case secondgap =>
    obtain ⟨_, g₂, rfl, ⟨_, g, d, rfl, ⟨w, op, rfl, hw, hop⟩, hg, hd⟩, hg₂⟩ := h
    exact ⟨op, [(g, d)], w, g₂, by simp, hw, hg₂.2, .inr ⟨hop, by simp, by simp [hg, hd]⟩⟩
  case secondarg =>
    obtain ⟨_, g₂, d₂, rfl, ⟨_, g, d, rfl, ⟨w, op, rfl, hw, hop⟩, hg, hd⟩, hg₂, hd₂⟩ := h
    exact ⟨op, [(g, d), (g₂, d₂)], w, [], by simp, hw, rfl,
      .inr ⟨hop, by simp, by simp [hg, hd, hg₂, hd₂]⟩⟩
  case tail =>
    obtain ⟨_, g₃, rfl, ⟨_, g₂, d₂, rfl, ⟨_, g, d, rfl, ⟨w, op, rfl, hw, hop⟩, hg, hd⟩, hg₂, hd₂⟩,
      hg₃⟩ := h
    exact ⟨op, [(g, d), (g₂, d₂)], w, g₃, by simp, hw, hg₃.2,
      .inr ⟨hop, by simp, by simp [hg, hd, hg₂, hd₂]⟩⟩
  case error => exact absurd rfl hq

theorem scanLine_sawQuestion (p : Parser) (u : List UInt8) :
    (scanLine p u).sawQuestion = u.contains 63 := by
  suffices ∀ sc : Scan, (u.foldl scanChar sc).sawQuestion = (sc.sawQuestion || u.contains 63) by
    simpa using this ⟨.preamble, 0, false, p⟩
  induction u with
  | nil => simp
  | cons c u ih =>
    intro sc
    have hq : ((classify c).1 == .question) = (63 == c) := by
      rw [Bool.eq_iff_iff, beq_iff_eq, beq_iff_eq, classify_question_iff, eq_comm]
    simp only [List.foldl_cons, ih, scanChar_sawQuestion, hq, List.contains_cons, Bool.or_assoc]

/-! ### Completeness: the scan of a line of the grammar -/

section Complete

variable {sc : Scan} {c : UInt8}

theorem scanChar_blank
    (hq : sc.state = .preamble ∨ sc.state = .firstgap ∨ sc.state = .secondgap ∨ sc.state = .tail)
    (hc : isWs c) : scanChar sc c = sc := by
  obtain ⟨st, i, sq, p⟩ := sc
  simp only at hq
  rcases hq with rfl | rfl | rfl | rfl <;> simp [scanChar, classify_ws hc, PState.next]

theorem foldl_scanChar_blanks
    (hq : sc.state = .preamble ∨ sc.state = .firstgap ∨ sc.state = .secondgap ∨ sc.state = .tail)
    {w : List UInt8} (hw : w.all isWs) : w.foldl scanChar sc = sc := by
  induction w with
  | nil => rfl
  | cons c w ih =>
    simp only [List.all_cons, Bool.and_eq_true] at hw
    rw [List.foldl_cons, scanChar_blank hq hw.1, ih hw.2]

theorem foldl_scanChar_gap (hq : sc.state = .opcode ∨ sc.state = .firstarg ∨ sc.state = .secondarg)
    {g : List UInt8} (hg : Gap g) :
    g.foldl scanChar sc = { sc with state := sc.state.next .white } := by
  obtain ⟨hne, hg⟩ := hg
  obtain ⟨c, g, rfl⟩ := List.exists_cons_of_ne_nil hne
  simp only [List.all_cons, Bool.and_eq_true] at hg
  have h1 : scanChar sc c = { sc with state := sc.state.next .white } := by
    obtain ⟨st, i, sq, p⟩ := sc
    simp only at hq
    rcases hq with rfl | rfl | rfl <;> simp [scanChar, classify_ws hg.1, PState.next]
  rw [List.foldl_cons, h1, foldl_scanChar_blanks _ hg.2]
  rcases hq with h | h | h <;> simp [h, PState.next]

theorem foldl_scanChar_blanks_live {sq : Bool} {p : Parser} (hq : sc.state ≠ .error)
    (hsq : sc.sawQuestion = sq) (hp : sc.parser = p) {w : List UInt8} (hw : w.all isWs) :
    (w.foldl scanChar sc).state ≠ .error ∧ (w.foldl scanChar sc).sawQuestion = sq ∧
      (w.foldl scanChar sc).parser = p := by
  subst hsq hp
  cases w with
  | nil => exact ⟨hq, rfl, rfl⟩
  | cons c w =>
    cases h : sc.state
    case error => exact absurd h hq
    case opcode | firstarg | secondarg =>
      rw [foldl_scanChar_gap (by simp [h]) ⟨List.cons_ne_nil _ _, hw⟩]
      simp [h, PState.next]
    all_goals
      rw [foldl_scanChar_blanks (by simp [h]) hw]
      exact ⟨by simp [h], rfl, rfl⟩

theorem set_replicate_zero (pre : List UInt8) {n : Nat} (hn : 0 < n) (x : UInt8) :
    (pre ++ List.replicate n 0).set pre.length x = pre ++ x :: List.replicate (n - 1) 0 := by
  obtain ⟨n, rfl⟩ : ∃ m, n = m + 1 := ⟨n - 1, by omega⟩
  rw [List.set_append_right _ _ (le_refl _), Nat.sub_self, List.replicate_succ, List.set_cons_zero]
  rfl

theorem scanChar_letter (hq : sc.state = .preamble ∨ sc.state = .opcode) (hc : isLetter c)
    (hi : sc.opidx < cmdChars) :
    scanChar sc c = { sc with
      state := .opcode, opidx := sc.opidx + 1
      parser := { sc.parser with
        haveCommand := true, thisCmdname := sc.parser.thisCmdname.set sc.opidx (upcase c) } } := by
  obtain ⟨st, i, sq, p⟩ := sc
  simp only at hq hi
  rcases hq with rfl | rfl <;> simp [scanChar, classify_letter hc, PState.next, hi]

theorem foldl_scanChar_letters {l : List UInt8} : ∀ {sc : Scan} {c : UInt8} {pre : List UInt8},
    (sc.state = .preamble ∨ sc.state = .opcode) → (c :: l).all isLetter →
    pre.length = sc.opidx → sc.opidx + l.length + 1 ≤ cmdChars →
    sc.parser.thisCmdname = pre ++ List.replicate (cmdChars - sc.opidx) 0 →
    (c :: l).foldl scanChar sc = { sc with
      state := .opcode, opidx := sc.opidx + l.length + 1
      parser := { sc.parser with
        haveCommand := true
        thisCmdname := pre ++ (c :: l).map upcase ++
          List.replicate (cmdChars - sc.opidx - l.length - 1) 0 } } := by
  induction l with
  | nil =>
    intro sc c pre hq hl hpre hlen hname
    rw [List.foldl_cons, List.foldl_nil,
      scanChar_letter hq (by simpa using hl) (by simpa using hlen),
      hname, ← hpre, set_replicate_zero _ (by simp at hlen; omega)]
    simp
  | cons c' l ih =>
    intro sc c pre hq hl hpre hlen hname
    simp only [List.all_cons, Bool.and_eq_true] at hl
    simp only [List.length_cons] at hlen
    rw [List.foldl_cons, scanChar_letter hq hl.1 (by omega),
      @ih _ _ (pre ++ [upcase c]) (Or.inr rfl) (by simp [hl.2.1, hl.2.2]) (by simp [hpre])
        (by simp only; omega)
        (by rw [hname, ← hpre, set_replicate_zero _ (by omega)]; simp [Nat.sub_sub])]
    simp only [List.map_cons, List.length_cons, List.append_assoc, List.singleton_append]
    rw [show sc.opidx + 1 + l.length + 1 = sc.opidx + (l.length + 1) + 1 by omega,
      show cmdChars - (sc.opidx + 1) - l.length - 1 = cmdChars - sc.opidx - (l.length + 1) - 1 by
        omega]

theorem scanChar_digit_first (hq : sc.state = .firstgap ∨ sc.state = .firstarg) (hc : isDigit c) :
    scanChar sc c = { sc with
      state := .firstarg
      parser := { sc.parser with argsfound := 1, thisArg1 := addDigit sc.parser.thisArg1 c } } := by
  obtain ⟨st, i, sq, p⟩ := sc
  simp only at hq
  rcases hq with rfl | rfl <;> simp [scanChar, classify_digit hc, PState.next]

theorem scanChar_digit_second (hq : sc.state = .secondgap ∨ sc.state = .secondarg)
    (hc : isDigit c) :
    scanChar sc c = { sc with
      state := .secondarg
      parser := { sc.parser with argsfound := 2, thisArg2 := addDigit sc.parser.thisArg2 c } } := by
  obtain ⟨st, i, sq, p⟩ := sc
  simp only at hq
  rcases hq with rfl | rfl <;> simp [scanChar, classify_digit hc, PState.next]

theorem foldl_scanChar_num_first {d : List UInt8} : ∀ {sc : Scan} {c : UInt8},
    (sc.state = .firstgap ∨ sc.state = .firstarg) → (c :: d).all isDigit →
    (c :: d).foldl scanChar sc = { sc with
      state := .firstarg
      parser := { sc.parser with
        argsfound := 1, thisArg1 := (c :: d).foldl addDigit sc.parser.thisArg1 } } := by
  induction d with
  | nil => intro sc c hq hd; simpa using scanChar_digit_first hq (by simpa using hd)
  | cons c' d ih =>
    intro sc c hq hd
    simp only [List.all_cons, Bool.and_eq_true] at hd
    rw [List.foldl_cons, scanChar_digit_first hq hd.1, ih (Or.inr rfl) (by simp [hd.2.1, hd.2.2])]
    rfl

theorem foldl_scanChar_num_second {d : List UInt8} : ∀ {sc : Scan} {c : UInt8},
    (sc.state = .secondgap ∨ sc.state = .secondarg) → (c :: d).all isDigit →
    (c :: d).foldl scanChar sc = { sc with
      state := .secondarg
      parser := { sc.parser with
        argsfound := 2, thisArg2 := (c :: d).foldl addDigit sc.parser.thisArg2 } } := by
  induction d with
  | nil => intro sc c hq hd; simpa using scanChar_digit_second hq (by simpa using hd)
  | cons c' d ih =>
    intro sc c hq hd
    simp only [List.all_cons, Bool.and_eq_true] at hd
    rw [List.foldl_cons, scanChar_digit_second hq hd.1, ih (Or.inr rfl) (by simp [hd.2.1, hd.2.2])]
    rfl

end Complete

theorem addDigit_ofNat (n : Nat) {c : UInt8} (hc : isDigit c) :
    addDigit (UInt16.ofNat n) c = UInt16.ofNat (10 * n + (c.toNat - 48)) := by
  simp only [isDigit, Bool.and_eq_true, decide_eq_true_eq] at hc
  apply UInt16.toNat.inj
  have hc' : c.toUInt16.toNat = c.toNat := rfl
  simp only [addDigit, UInt16.toNat, UInt16.add_def, UInt16.mul_def, UInt16.sub_def,
    BitVec.toNat_add, BitVec.toNat_mul, BitVec.toNat_sub] at hc' ⊢
  rw [hc']
  show ((BitVec.ofNat 16 n).toNat * (BitVec.ofNat 16 10).toNat % 2 ^ 16 +
    (2 ^ 16 - (BitVec.ofNat 16 48).toNat + c.toNat) % 2 ^ 16) % 2 ^ 16 =
    (BitVec.ofNat 16 (10 * n + (c.toNat - 48))).toNat
  simp only [BitVec.toNat_ofNat]
  omega

theorem foldl_addDigit {d : List UInt8} (hd : d.all isDigit) (n : Nat) :
    d.foldl addDigit (UInt16.ofNat n) =
      UInt16.ofNat (d.foldl (fun n c => 10 * n + (c.toNat - 48)) n) := by
  induction d generalizing n with
  | nil => rfl
  | cons c d ih =>
    simp only [List.all_cons, Bool.and_eq_true] at hd
    rw [List.foldl_cons, addDigit_ofNat n hd.1, ih hd.2, List.foldl_cons]

/-- A line of the grammar with an opcode scans to a live state with no `?` seen and the opcode
and the arguments stored. -/
theorem scanLine_shape {l op : List UInt8} {args : List (List UInt8 × List UInt8)}
    (h : LineShape l op args) (hop : op ≠ []) :
    (scanLine Parser.reset l).state ≠ .error ∧ (scanLine Parser.reset l).sawQuestion = false ∧
      (scanLine Parser.reset l).parser = Parser.ofCommand op args := by
  obtain ⟨w₀, w₃, rfl, hw₀, hw₃, ⟨rfl, -⟩ | ⟨⟨-, hlen, hop'⟩, hargs, ha⟩⟩ := h
  · exact absurd rfl hop
  obtain ⟨c, op, rfl⟩ := List.exists_cons_of_ne_nil hop
  have s0 : w₀.foldl scanChar ⟨.preamble, 0, false, Parser.reset⟩ =
      ⟨.preamble, 0, false, Parser.reset⟩ := foldl_scanChar_blanks (Or.inl rfl) hw₀
  have s1 := @foldl_scanChar_letters op ⟨.preamble, 0, false, Parser.reset⟩ c [] (Or.inl rfl) hop'
    rfl (by simpa using hlen) rfl
  unfold scanLine
  rw [List.foldl_append, List.foldl_append, List.foldl_append, s0, s1]
  have hname : ([] : List UInt8) ++ (c :: op).map upcase ++
      List.replicate (cmdChars - 0 - op.length - 1) 0 =
      (c :: op).map upcase ++ List.replicate (cmdChars - (c :: op).length) 0 := by
    rw [List.length_cons, show cmdChars - 0 - op.length - 1 = cmdChars - (op.length + 1) by omega,
      List.nil_append]
  have hval : ∀ d : List UInt8, d.all isDigit →
      d.foldl addDigit 0 = UInt16.ofNat (decimalValue d) :=
    fun d hd => foldl_addDigit hd 0
  match args, hargs, ha with
  | [], _, _ =>
    simp only [List.map_nil, List.flatten_nil, List.foldl_nil]
    refine foldl_scanChar_blanks_live (by simp) rfl ?_ hw₃
    simp [Parser.ofCommand, Parser.reset, hname, argValue, Nat.sub_sub]
  | [(g, d)], _, ha =>
    obtain ⟨hg, hd⟩ := ha (g, d) (by simp)
    obtain ⟨c₁, d, rfl⟩ := List.exists_cons_of_ne_nil hd.1
    simp only [List.map_cons, List.map_nil, List.flatten_cons, List.flatten_nil, List.append_nil,
      List.foldl_append]
    rw [foldl_scanChar_gap (Or.inl rfl) hg, foldl_scanChar_num_first (Or.inl rfl) hd.2]
    refine foldl_scanChar_blanks_live (by simp) rfl ?_ hw₃
    simp [Parser.ofCommand, Parser.reset, hname, argValue, Nat.sub_sub, hval _ hd.2]
  | [(g, d), (g₂, d₂)], _, ha =>
    obtain ⟨hg, hd⟩ := ha (g, d) (by simp)
    obtain ⟨hg₂, hd₂⟩ := ha (g₂, d₂) (by simp)
    obtain ⟨c₁, d, rfl⟩ := List.exists_cons_of_ne_nil hd.1
    obtain ⟨c₂, d₂, rfl⟩ := List.exists_cons_of_ne_nil hd₂.1
    simp only [List.map_cons, List.map_nil, List.flatten_cons, List.flatten_nil, List.append_nil,
      List.foldl_append]
    rw [foldl_scanChar_gap (Or.inl rfl) hg, foldl_scanChar_num_first (Or.inl rfl) hd.2,
      foldl_scanChar_gap (Or.inr (Or.inl rfl)) hg₂, foldl_scanChar_num_second (Or.inl rfl) hd₂.2]
    refine foldl_scanChar_blanks_live (by simp) rfl ?_ hw₃
    simp [Parser.ofCommand, Parser.reset, hname, argValue, Nat.sub_sub, hval _ hd.2, hval _ hd₂.2]
  | _ :: _ :: _ :: _, hargs, _ => simp at hargs

theorem scanLine_blanks {l : List UInt8} (h : l.all isWs) (p : Parser) :
    scanLine p l = ⟨.preamble, 0, false, p⟩ :=
  foldl_scanChar_blanks (Or.inl rfl) h

theorem LineShape.blank {l : List UInt8} {args : List (List UInt8 × List UInt8)}
    (h : LineShape l [] args) : args = [] ∧ l.all isWs := by
  obtain ⟨w₀, w₃, rfl, hw₀, hw₃, ⟨-, rfl⟩ | ⟨⟨hne, -⟩, -⟩⟩ := h
  · simp [hw₀, hw₃]
  · exact absurd rfl hne

theorem isLetter_eq_false {b : UInt8} (h : isWs b ∨ isDigit b) : isLetter b = false := by
  simp only [isWs, isDigit, isLetter, Bool.and_eq_true, decide_eq_true_eq] at h ⊢
  simp only [Bool.or_eq_false_iff, Bool.and_eq_false_iff, decide_eq_false_iff_not]
  omega

theorem LineShape.length_op {l op : List UInt8} {args : List (List UInt8 × List UInt8)}
    (h : LineShape l op args) : op.length = l.countP isLetter := by
  obtain ⟨w₀, w₃, rfl, hw₀, hw₃, hop⟩ := h
  have hws : ∀ w : List UInt8, w.all isWs → w.countP isLetter = 0 := fun w hw =>
    List.countP_eq_zero.2 fun b hb => by
      rw [isLetter_eq_false (.inl (List.all_eq_true.1 hw b hb))]; simp
  have hargs : (args.map fun a => a.1 ++ a.2).flatten.countP isLetter = 0 := by
    refine List.countP_eq_zero.2 fun b hb => ?_
    obtain ⟨_, ⟨a, ha, rfl⟩, hb⟩ :=
      List.mem_flatten.1 hb |>.imp fun _ h => h.imp_left List.mem_map.1
    rcases hop with ⟨-, rfl⟩ | ⟨-, -, hga⟩
    · simp at ha
    obtain ⟨hg, hd⟩ := hga a ha
    rcases List.mem_append.1 hb with hb | hb
    · rw [isLetter_eq_false (.inl (List.all_eq_true.1 hg.2 b hb))]; simp
    · rw [isLetter_eq_false (.inr (List.all_eq_true.1 hd.2 b hb))]; simp
  have hop : op.countP isLetter = op.length := by
    rcases hop with ⟨rfl, -⟩ | ⟨⟨-, -, hl⟩, -⟩
    · rfl
    · exact List.countP_eq_length.2 (List.all_eq_true.1 hl)
  simp only [List.countP_append, hws _ hw₀, hws _ hw₃, hargs, hop]
  omega

theorem scanLine_live {l op : List UInt8} {args : List (List UInt8 × List UInt8)}
    (h : LineShape l op args) :
    (scanLine Parser.reset l).state ≠ .error ∧ (scanLine Parser.reset l).sawQuestion = false := by
  by_cases hop : op = []
  · subst hop
    rw [scanLine_blanks h.blank.2]
    exact ⟨by simp, rfl⟩
  · exact ⟨(scanLine_shape h hop).1, (scanLine_shape h hop).2.1⟩

theorem parseInputLine_eq (p : Parser) (rawline : List UInt8) :
    p.parseInputLine rawline =
      if (scanLine Parser.reset (cstr rawline)).sawQuestion then (Parser.help, true)
      else if (scanLine Parser.reset (cstr rawline)).state = .error then (Parser.reset, false)
      else ((scanLine Parser.reset (cstr rawline)).parser, true) := by
  unfold Parser.parseInputLine Parser.resetState
  split_ifs <;> simp_all [Parser.help]

section Parse

variable (p : Parser) {rawline : List UInt8}

theorem parseInputLine_question (h : 63 ∈ cstr rawline) :
    p.parseInputLine rawline = (Parser.help, true) := by
  rw [parseInputLine_eq, scanLine_sawQuestion, if_pos (List.elem_iff.2 h)]

theorem parseInputLine_of_not_question (h : 63 ∉ cstr rawline) :
    p.parseInputLine rawline =
      if (scanLine Parser.reset (cstr rawline)).state = .error then (Parser.reset, false)
      else ((scanLine Parser.reset (cstr rawline)).parser, true) := by
  rw [parseInputLine_eq, scanLine_sawQuestion, if_neg (mt List.elem_iff.1 h)]

theorem parseInputLine_rejected (h : (p.parseInputLine rawline).2 = false) :
    (p.parseInputLine rawline).1 = Parser.reset := by
  rw [parseInputLine_eq] at h ⊢
  split_ifs at h ⊢
  rfl

/-- An accepted line of the grammar with an opcode stores the command. -/
theorem parseInputLine_shape {op : List UInt8} {args : List (List UInt8 × List UInt8)}
    (h : LineShape (cstr rawline) op args) (hop : op ≠ []) :
    p.parseInputLine rawline = (Parser.ofCommand op args, true) := by
  obtain ⟨hlive, hsq, hparser⟩ := scanLine_shape h hop
  rw [parseInputLine_eq, hsq, hparser]
  simp [hlive]

theorem parseInputLine_blank {args : List (List UInt8 × List UInt8)}
    (h : LineShape (cstr rawline) [] args) : p.parseInputLine rawline = (Parser.reset, true) := by
  rw [parseInputLine_eq, scanLine_blanks h.blank.2]
  rfl

/-- On a seven-bit line with no `?`, the scan accepts exactly the lines of the grammar. -/
theorem parseInputLine_iff_shape (hq : 63 ∉ cstr rawline) (h7 : ∀ b ∈ cstr rawline, b.toNat < 128) :
    (p.parseInputLine rawline).2 = true ↔ ∃ op args, LineShape (cstr rawline) op args := by
  rw [parseInputLine_of_not_question p hq]
  constructor
  · intro hacc
    have hlive : (scanLine Parser.reset (cstr rawline)).state ≠ .error := by
      intro he; simp [he] at hacc
    exact (scanLine_reach _ _ h7 fun _ => ne_zero_of_mem_cstr).shape hlive
  · rintro ⟨op, args, hs⟩
    simp [(scanLine_live hs).1]

end Parse

/-! ### Handing a command out -/

theorem wasNewCommand_haveCommand (p : Parser) (out : CmdOut) :
    (p.wasNewCommand out).1.haveCommand = false := by
  unfold Parser.wasNewCommand
  split_ifs with h <;> simp [h]

theorem wasNewCommand_of_not_haveCommand {p : Parser} (h : p.haveCommand = false) (out : CmdOut) :
    p.wasNewCommand out = (p, false, out) := by
  simp [Parser.wasNewCommand, h]

theorem wasNewCommand_wasNewCommand (p : Parser) (out out' : CmdOut) :
    ((p.wasNewCommand out).1.wasNewCommand out').2 = (false, out') := by
  rw [wasNewCommand_of_not_haveCommand (wasNewCommand_haveCommand p out)]

/-! ### The contract of `ParseInputLine` and `WasNewCommand` -/

/-- Over every line: a `?` gives `HLP` with no arguments; on a seven-bit line without `?` the
result is acceptance by the grammar; a line of the grammar with an opcode hands out the
upper-cased opcode and its arguments once; a blank or rejected line hands out nothing. -/
theorem parseInputLine_wasNewCommand (p : Parser) (rawline : List UInt8) (out : CmdOut) :
    let l := cstr rawline
    let r := p.parseInputLine rawline
    (63 ∈ l → r.2 = true ∧ (r.1.wasNewCommand out).2 = (true, ⟨cmdHelp, 0, 0, 0⟩)) ∧
    (63 ∉ l → (∀ b ∈ l, b.toNat < 128) → (r.2 = true ↔ ∃ op args, LineShape l op args)) ∧
    (∀ op args, LineShape l op args → op ≠ [] →
      r.2 = true ∧
      (r.1.wasNewCommand out).2 = (true, ⟨op.map upcase ++ List.replicate (cmdChars - op.length) 0,
        UInt16.ofNat (argValue args 0), UInt16.ofNat (argValue args 1), args.length⟩) ∧
      ∀ out', ((r.1.wasNewCommand out).1.wasNewCommand out').2 = (false, out')) ∧
    ((∃ args, LineShape l [] args) ∨ r.2 = false → r.1.wasNewCommand out = (r.1, false, out)) := by
  intro l r
  refine ⟨fun hq => ?_, parseInputLine_iff_shape p, fun op args hs hop => ?_, fun h => ?_⟩
  · rw [show r = (Parser.help, true) from parseInputLine_question p hq]
    exact ⟨rfl, rfl⟩
  · rw [show r = (Parser.ofCommand op args, true) from parseInputLine_shape p hs hop]
    exact ⟨rfl, rfl, wasNewCommand_wasNewCommand _ out⟩
  · apply wasNewCommand_of_not_haveCommand
    rcases h with ⟨args, hs⟩ | hrej
    · rw [show r = (Parser.reset, true) from parseInputLine_blank p hs]; rfl
    · rw [show r.1 = Parser.reset from parseInputLine_rejected p hrej]; rfl

theorem LineShape.mem {l op : List UInt8} {args : List (List UInt8 × List UInt8)}
    (h : LineShape l op args) {b : UInt8} (hb : b ∈ l) : isWs b ∨ isLetter b ∨ isDigit b := by
  obtain ⟨w₀, w₃, rfl, hw₀, hw₃, hop⟩ := h
  simp only [List.mem_append, List.mem_flatten, List.mem_map] at hb
  rcases hb with ((hb | hb) | ⟨_, ⟨a, ha, rfl⟩, hb⟩) | hb
  · exact .inl (List.all_eq_true.1 hw₀ b hb)
  · rcases hop with ⟨rfl, -⟩ | ⟨⟨-, -, hl⟩, -⟩
    · simp at hb
    · exact .inr (.inl (List.all_eq_true.1 hl b hb))
  · rcases hop with ⟨-, rfl⟩ | ⟨-, -, hga⟩
    · simp at ha
    obtain ⟨hg, hd⟩ := hga a ha
    rcases List.mem_append.1 hb with hb | hb
    · exact .inl (List.all_eq_true.1 hg.2 b hb)
    · exact .inr (.inr (List.all_eq_true.1 hd.2 b hb))
  · exact .inl (List.all_eq_true.1 hw₃ b hb)

/-- `AB` is accepted, and every reading of it in the grammar has a two-letter opcode; `HLP`
followed by the byte `0x80` is accepted, though no line of the grammar holds that byte. -/
theorem parseInputLine_short_opcode :
    (Parser.reset.parseInputLine [65, 66, 0]).2 = true ∧
      (∀ op args, LineShape (cstr [65, 66, 0]) op args → op.length = 2) ∧
      (Parser.reset.parseInputLine [72, 76, 80, 128, 0]).2 = true ∧
      ¬ ∃ op args, LineShape (cstr [72, 76, 80, 128, 0]) op args :=
  ⟨by decide, fun _ _ h => h.length_op.trans (by decide), by decide,
    fun ⟨_, _, h⟩ => absurd (h.mem (b := 128) (by decide)) (by decide)⟩

/-! ### The arguments of an accepted line -/

/-- A byte as the scan reads it: `char` being signed, every byte from `0x80` on is a blank, read
here as a space. -/
def asScanned (b : UInt8) : UInt8 := if b.toNat < 128 then b else 32

theorem scanChar_white {b : UInt8} (h : (classify b).1 = .white) (sc : Scan) :
    scanChar sc b = { sc with state := sc.state.next .white } := by
  unfold scanChar
  rw [show classify b = (.white, (classify b).2) from Prod.ext h rfl]
  cases hq : sc.state <;> simp [hq, PState.next]

theorem scanChar_asScanned (sc : Scan) (b : UInt8) : scanChar sc (asScanned b) = scanChar sc b := by
  unfold asScanned
  split_ifs with hb
  · rfl
  · rw [scanChar_white (by decide), scanChar_white (classify_high (by omega))]

theorem cstr_map_asScanned (l : List UInt8) : cstr (l.map asScanned) = (cstr l).map asScanned := by
  unfold cstr
  rw [List.takeWhile_map]
  congr 2
  funext b
  simp only [Function.comp, asScanned]
  split_ifs with hb
  · rfl
  · have hb0 : b ≠ 0 := fun h => by subst h; exact hb (by decide)
    simp [hb0]

theorem parseInputLine_asScanned (p : Parser) (rawline : List UInt8) :
    p.parseInputLine (rawline.map asScanned) = p.parseInputLine rawline := by
  have hscan : ∀ (u : List UInt8) (sc : Scan),
      (u.map asScanned).foldl scanChar sc = u.foldl scanChar sc := by
    intro u
    induction u with
    | nil => intro sc; rfl
    | cons b u ih => intro sc; simp only [List.map_cons, List.foldl_cons, scanChar_asScanned, ih]
  rw [parseInputLine_eq, parseInputLine_eq, cstr_map_asScanned, scanLine, scanLine, hscan]

theorem asScanned_lt (b : UInt8) : (asScanned b).toNat < 128 := by
  unfold asScanned; split_ifs with h
  · exact h
  · decide

theorem question_mem_asScanned {rawline : List UInt8} :
    63 ∈ cstr (rawline.map asScanned) ↔ 63 ∈ cstr rawline := by
  rw [cstr_map_asScanned, List.mem_map]
  refine ⟨fun ⟨b, hb, he⟩ => ?_, fun h => ⟨63, h, rfl⟩⟩
  unfold asScanned at he
  split_ifs at he
  · exact he ▸ hb
  · exact absurd he (by decide)

theorem lt_of_mem_asScanned {rawline : List UInt8} (b : UInt8)
    (hb : b ∈ cstr (rawline.map asScanned)) : b.toNat < 128 := by
  rw [cstr_map_asScanned] at hb
  obtain ⟨a, -, rfl⟩ := List.mem_map.1 hb
  exact asScanned_lt a

/-- Over every line `ParseInputLine` accepts without a `?`: read as the scan reads it, the line is
one of the grammar, and when it holds an opcode `WasNewCommand` hands out the decimal values of
its first and second digit runs, each modulo `2 ^ 16` (the `uint16_t` accumulation
`this_arg = this_arg * 10 + d` wraps), `0` for a missing one, and the number of runs. -/
theorem parseInputLine_args (p : Parser) (rawline : List UInt8) (out : CmdOut)
    (hacc : (p.parseInputLine rawline).2 = true) (hq : 63 ∉ cstr rawline) :
    ∃ op args, LineShape (cstr (rawline.map asScanned)) op args ∧
      (op ≠ [] → ((p.parseInputLine rawline).1.wasNewCommand out).2 =
        (true, ⟨op.map upcase ++ List.replicate (cmdChars - op.length) 0,
          UInt16.ofNat (argValue args 0), UInt16.ofNat (argValue args 1), args.length⟩)) := by
  rw [← parseInputLine_asScanned] at hacc ⊢
  obtain ⟨op, args, hs⟩ :=
    (parseInputLine_iff_shape p (mt question_mem_asScanned.1 hq) lt_of_mem_asScanned).1 hacc
  refine ⟨op, args, hs, fun hop => ?_⟩
  rw [parseInputLine_shape p hs hop]
  rfl

/-- The theorem on `ABC 65536`. -/
theorem parseInputLine_args_wrap_line :
    let r := Parser.reset.parseInputLine [65, 66, 67, 32, 54, 53, 53, 51, 54, 0]
    (r.2 = true ∧ 63 ∉ cstr [65, 66, 67, 32, 54, 53, 53, 51, 54, 0]) ∧
      ∃ op args, LineShape (cstr ([65, 66, 67, 32, 54, 53, 53, 51, 54, 0].map asScanned)) op args ∧
        (op ≠ [] → (r.1.wasNewCommand ⟨[], 0, 0, 0⟩).2 =
          (true, ⟨op.map upcase ++ List.replicate (cmdChars - op.length) 0,
            UInt16.ofNat (argValue args 0), UInt16.ofNat (argValue args 1), args.length⟩)) :=
  ⟨⟨by decide, by decide⟩, parseInputLine_args Parser.reset _ _ (by decide) (by decide)⟩

/-- `ABC 65536` is accepted without a `?`, and the typed `65536` is handed out as `0`. -/
theorem parseInputLine_arg_wraps :
    let r := Parser.reset.parseInputLine [65, 66, 67, 32, 54, 53, 53, 51, 54, 0]
    r.2 = true ∧ 63 ∉ cstr [65, 66, 67, 32, 54, 53, 53, 51, 54, 0] ∧
      (r.1.wasNewCommand ⟨[], 0, 0, 0⟩).2 = (true, ⟨[65, 66, 67], 0, 0, 1⟩) ∧
      decimalValue [54, 53, 53, 51, 54] = 65536 :=
  ⟨by decide, by decide, by decide, by decide⟩

/-! ### Letter case -/

theorem upcase_of_not_lower {b : UInt8} (h : ¬(97 ≤ b.toNat ∧ b.toNat ≤ 122)) : upcase b = b :=
  if_neg h

theorem upcase_toNat_of_lower {b : UInt8} (h : 97 ≤ b.toNat ∧ b.toNat ≤ 122) :
    (upcase b).toNat = b.toNat - 32 := by
  have h32 : (32 : UInt8).toNat = 32 := rfl
  rw [upcase, if_pos h, UInt8.toNat_sub_of_le _ _ (by show (32 : UInt8).toNat ≤ b.toNat; omega), h32]

theorem upcase_upcase (b : UInt8) : upcase (upcase b) = upcase b := by
  by_cases h : 97 ≤ b.toNat ∧ b.toNat ≤ 122
  · rw [upcase_of_not_lower (by rw [upcase_toNat_of_lower h]; omega)]
  · rw [upcase_of_not_lower h, upcase_of_not_lower h]

theorem isLetter_upcase {b : UInt8} (h : isLetter b) : isLetter (upcase b) := by
  by_cases hl : 97 ≤ b.toNat ∧ b.toNat ≤ 122
  · simp only [isLetter, upcase_toNat_of_lower hl]
    simp only [Bool.or_eq_true, Bool.and_eq_true, decide_eq_true_eq]
    omega
  · rwa [upcase_of_not_lower hl]

/-- A letter and its upper-case form are read alike; every other byte is its own upper case. -/
theorem classify_upcase (b : UInt8) : classify (upcase b) = classify b := by
  by_cases h : isLetter b
  · rw [classify_letter (isLetter_upcase h), classify_letter h, upcase_upcase]
  · simp only [isLetter, Bool.or_eq_true, Bool.and_eq_true, decide_eq_true_eq] at h
    rw [upcase_of_not_lower (by omega)]

theorem scanChar_upcase (sc : Scan) (b : UInt8) : scanChar sc (upcase b) = scanChar sc b := by
  unfold scanChar
  rw [classify_upcase]

theorem cstr_map_upcase (l : List UInt8) : cstr (l.map upcase) = (cstr l).map upcase := by
  unfold cstr
  rw [List.takeWhile_map]
  congr 2
  funext b
  simp only [Function.comp]
  by_cases h : 97 ≤ b.toNat ∧ b.toNat ≤ 122
  · have hb : b ≠ 0 := fun e => by subst e; exact absurd h (by decide)
    have hu : upcase b ≠ 0 := fun e => by
      have := upcase_toNat_of_lower h
      rw [e, UInt8.toNat_zero] at this
      omega
    rw [bne_iff_ne.mpr hu, bne_iff_ne.mpr hb]
  · rw [upcase_of_not_lower h]

theorem parseInputLine_map_upcase (p : Parser) (rawline : List UInt8) :
    p.parseInputLine (rawline.map upcase) = p.parseInputLine rawline := by
  have hscan : ∀ (u : List UInt8) (sc : Scan),
      (u.map upcase).foldl scanChar sc = u.foldl scanChar sc := by
    intro u
    induction u with
    | nil => intro sc; rfl
    | cons b u ih => intro sc; simp only [List.map_cons, List.foldl_cons, scanChar_upcase, ih]
  rw [parseInputLine_eq, parseInputLine_eq, cstr_map_upcase, scanLine, scanLine, hscan]

/-- `ParseInputLine` does not see letter case: two lines that differ only in the case of their
letters leave the same parser state and the same result, whether the line is a command, a `?` or
rejected. -/
theorem parseInputLine_case_blind (p : Parser) (l l' : List UInt8)
    (h : l.map upcase = l'.map upcase) : p.parseInputLine l = p.parseInputLine l' := by
  rw [← parseInputLine_map_upcase p l, h, parseInputLine_map_upcase]

theorem parseInputLine_case_blind_led :
    Parser.reset.parseInputLine [108, 101, 100, 32, 51] =
      Parser.reset.parseInputLine [76, 101, 68, 32, 51] :=
  parseInputLine_case_blind _ _ _ (by decide)

end NeurAvr
