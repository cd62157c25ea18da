import Mathlib.Data.List.Basic

/-!
# Text of fixed form

A line is a list of pieces: literal text, and fields that are the text of one
value each. `printLine` puts values into the fields and `readLine` takes them
out again. All fields have one width, so all lines of one form have one length,
and a reader that has not got all of a line has got nothing of it.

What is read may stop anywhere. `readLines_cut` says what is left of a
list of rows then: the rows whose lines are complete, which are as many as their
length goes into what was read.
-/

namespace Ch552e.Lib.Text

universe u v

variable {α : Type u} {β : Type v}

/-- The text of a value, in `width` symbols. -/
structure Field (α : Type u) (β : Type v) where
  width : Nat
  encode : β → List α
  decode : List α → Option β
  length_encode : ∀ v, (encode v).length = width
  decode_encode : ∀ v, decode (encode v) = some v
  encode_of_decode : ∀ bs v, decode bs = some v → encode v = bs

inductive Piece (α : Type u) where
  | text (bs : List α)
  | field

def printLine (code : Field α β) : List (Piece α) → List β → List α
  | [], _ => []
  | .text bs :: ps, vs => bs ++ printLine code ps vs
  | .field :: ps, v :: vs => code.encode v ++ printLine code ps vs
  | .field :: ps, [] => printLine code ps []

def fieldCount : List (Piece α) → Nat
  | [] => 0
  | .text _ :: ps => fieldCount ps
  | .field :: ps => fieldCount ps + 1

def lineLength (code : Field α β) : List (Piece α) → Nat
  | [] => 0
  | .text bs :: ps => bs.length + lineLength code ps
  | .field :: ps => code.width + lineLength code ps

theorem length_printLine (code : Field α β) (ps : List (Piece α)) {vs : List β}
    (h : vs.length = fieldCount ps) :
    (printLine code ps vs).length = lineLength code ps := by
  induction ps generalizing vs with
  | nil => rfl
  | cons p ps ih =>
      cases p with
      | text bs => rw [printLine, lineLength, List.length_append, ih h]
      | field =>
          cases vs with
          | nil => simp [fieldCount] at h
          | cons v vs =>
              rw [printLine, lineLength, List.length_append,
                code.length_encode, ih (Nat.succ.inj h)]

section Read

variable [DecidableEq α]

/-- The values of one line, and what follows it. -/
def readLine (code : Field α β) : List (Piece α) → List α →
    Option (List β × List α)
  | [], bs => some ([], bs)
  | .text t :: ps, bs =>
      if bs.take t.length = t then readLine code ps (bs.drop t.length) else none
  | .field :: ps, bs =>
      if code.width ≤ bs.length then
        (code.decode (bs.take code.width)).bind fun v =>
          (readLine code ps (bs.drop code.width)).map
            fun (vs, rest) => (v :: vs, rest)
      else none

/-- The values of the lines that are there, with fuel. -/
def readLines (code : Field α β) (ps : List (Piece α)) : Nat → List α →
    List (List β)
  | 0, _ => []
  | n + 1, bs =>
      match readLine code ps bs with
      | some (vs, rest) => vs :: readLines code ps n rest
      | none => []

variable {code : Field α β} {ps : List (Piece α)}

/-- Reading is printing backwards: a line is read where it stands and nowhere
else. -/
theorem readLine_eq_some {bs rest : List α} {vs : List β} :
    readLine code ps bs = some (vs, rest) ↔
      vs.length = fieldCount ps ∧ bs = printLine code ps vs ++ rest := by
  induction ps generalizing bs vs with
  | nil =>
      rw [readLine, Option.some.injEq, Prod.mk.injEq, fieldCount, printLine,
        List.length_eq_zero_iff, List.nil_append]
      exact and_congr_left' eq_comm
  | cons p ps ih =>
      cases p with
      | text t =>
          rw [readLine, fieldCount, printLine, List.append_assoc]
          constructor
          · intro h
            split at h
            · next htake =>
                obtain ⟨hvs, hdrop⟩ := ih.mp h
                refine ⟨hvs, ?_⟩
                rw [← hdrop]
                conv_lhs => rw [← List.take_append_drop t.length bs, htake]
            · exact absurd h (by simp)
          · rintro ⟨hvs, rfl⟩
            rw [List.take_left, List.drop_left, if_pos rfl]
            exact ih.mpr ⟨hvs, rfl⟩
      | field =>
          rw [readLine, fieldCount]
          constructor
          · intro h
            split at h
            · obtain ⟨v, hv, h⟩ := Option.bind_eq_some_iff.mp h
              obtain ⟨⟨ws, rest'⟩, hws, hpair⟩ := Option.map_eq_some_iff.mp h
              obtain ⟨rfl, rfl⟩ := Prod.mk.injEq .. ▸ hpair
              obtain ⟨hlen, hdrop⟩ := ih.mp hws
              refine ⟨congrArg Nat.succ hlen, ?_⟩
              rw [printLine, List.append_assoc, ← hdrop,
                code.encode_of_decode _ _ hv, List.take_append_drop]
            · exact absurd h (by simp)
          · rintro ⟨hvs, rfl⟩
            cases vs with
            | nil => exact absurd hvs (by simp)
            | cons v vs =>
                have hlen := code.length_encode v
                rw [printLine, List.append_assoc, if_pos (by
                    rw [List.length_append]
                    omega),
                  ← hlen, List.take_left, List.drop_left, code.decode_encode,
                  Option.bind_some, ih.mpr ⟨Nat.succ.inj hvs, rfl⟩]
                rfl

/-- A reader gets nothing of a line it has not got all of. -/
theorem readLine_short {bs : List α} (h : bs.length < lineLength code ps) :
    readLine code ps bs = none := by
  by_contra hsome
  obtain ⟨⟨vs, rest⟩, hread⟩ := Option.ne_none_iff_exists'.mp hsome
  obtain ⟨hvs, rfl⟩ := readLine_eq_some.mp hread
  rw [List.length_append, length_printLine code ps hvs] at h
  omega

/-- What a reader makes of rows that break off somewhere. -/
theorem readLines_cut (code : Field α β) (ps : List (Piece α))
    (hpos : 0 < lineLength code ps) {rows : List (List β)}
    (hrows : ∀ vs ∈ rows, vs.length = fieldCount ps) {bs : List α}
    (h : bs <+: rows.flatMap (printLine code ps)) {n : Nat} (hn : bs.length ≤ n) :
    readLines code ps n bs = rows.take (bs.length / lineLength code ps) := by
  induction rows generalizing bs n with
  | nil =>
      obtain rfl := List.prefix_nil.mp h
      rw [List.take_nil]
      cases n with
      | zero => rfl
      | succ n =>
          have hnone : readLine code ps [] = none := readLine_short hpos
          rw [readLines, hnone]
  | cons vs rows ih =>
      have hlen := length_printLine code ps (hrows vs List.mem_cons_self)
      rw [List.flatMap_cons] at h
      rcases Nat.lt_or_ge bs.length (lineLength code ps) with hlt | hge
      · rw [Nat.div_eq_of_lt hlt, List.take_zero]
        cases n with
        | zero => rfl
        | succ n => rw [readLines, readLine_short hlt]
      · have hline : printLine code ps vs <+: bs :=
          List.prefix_of_prefix_length_le (List.prefix_append _ _) h
            (hlen ▸ hge)
        obtain ⟨rest, rfl⟩ := hline
        have hrest := (List.prefix_append_right_inj _).mp h
        rw [List.length_append, hlen] at hn ⊢
        cases n with
        | zero => omega
        | succ n =>
            have hread : readLine code ps (printLine code ps vs ++ rest) =
                some (vs, rest) :=
              readLine_eq_some.mpr ⟨hrows vs List.mem_cons_self, rfl⟩
            have hih := ih (fun w hw => hrows w (List.mem_cons_of_mem _ hw))
              hrest (n := n) (by omega)
            rw [readLines, hread, Nat.add_div_left _ hpos, List.take_succ_cons,
              ← hih]

end Read

end Ch552e.Lib.Text
