import FirmwareHost.Proofs.HexReading
import FirmwareHost.Toml.Printer

/-! Strings in quotes, written and read back. Each form has a way to write every character that it
may hold, and a body written that way is read up to its closing quotes and no further. -/

namespace FirmwareHost.Toml

variable {q : Quotation} {c d : Char} {e : Escape} {cs ds ws rest : List Char} {n run v w : Nat}

theorem ne_break_of_isText (h : isText c) : c ≠ '\n' ∧ c ≠ '\r' := by
  constructor
  · rintro rfl
    exact absurd h (by decide)
  · rintro rfl
    exact absurd h (by decide)

namespace Escape

/-- What escapes spell: the characters that are read from here on up to the one that ends it. -/
inductive Spells : Escape → List Char → Char → Prop
  | last {e : Escape} {d c : Char} (h : e.step d = .char c) : Spells e [d] c
  | more {e e' : Escape} {d c : Char} {ds : List Char} (h : e.step d = .more e')
      (hs : Spells e' ds c) : Spells e (d :: ds) c

theorem scalar?_toNat (c : Char) : scalar? c.toNat = some c := by
  have hvalid : c.toNat.isValidChar := c.valid
  rw [scalar?, dif_pos hvalid]
  rfl

theorem digit?_toUpper (h : n < 16) : Hex.digit? (Hex.digit n).toUpper = some n := by
  have hall : ∀ n < 16, Hex.digit? (Hex.digit n).toUpper = some n := by decide
  exact hall n h

theorem spells_digits (hn : n < 16 ^ (w + 1)) (hc : scalar? (v * 16 ^ (w + 1) + n) = some c) :
    Spells (.digits (w + 1) v) ((Hex.padded (w + 1) n).map Char.toUpper) c := by
  induction w generalizing v n with
  | zero =>
    have hn : n < 16 := by simpa using hn
    have hchar : scalar? (16 * v + n) = some c := by
      rw [← hc, Nat.zero_add, Nat.pow_one, Nat.mul_comm]
    have hstep : (digits 1 v).step (Hex.digit n).toUpper = .char c := by
      simp [step, digit?_toUpper hn, hchar]
    simpa [Hex.padded, Nat.mod_eq_of_lt hn] using Spells.last hstep
  | succ w ih =>
    obtain ⟨d, m, hd, hm, rfl, hpad⟩ := Hex.padded_split hn
    have hshift : (16 * v + d) * 16 ^ (w + 1) + m = v * 16 ^ (w + 2) + (d * 16 ^ (w + 1) + m) := by
      ring
    have hstep : (digits (w + 2) v).step (Hex.digit d).toUpper =
        .more (.digits (w + 1) (16 * v + d)) := by
      simp [step, digit?_toUpper hd]
    rw [hpad, List.map_cons]
    exact .more hstep (ih hm (hshift ▸ hc))

end Escape

/-- How a form may write a character between its quotes. -/
inductive Quotation.Writes (q : Quotation) : Char → List Char → Prop
  | plain {c : Char} (ht : isText c) (hq : c ≠ q.quote) (hb : q.escapes → c ≠ '\\') : q.Writes c [c]
  | escaped {c : Char} {ds : List Char} (he : q.escapes) (hq : '\\' ≠ q.quote)
      (hs : Escape.Spells .opened ds c) : q.Writes c ('\\' :: ds)

namespace Quotation

@[simp] theorem quote_basic : basic.quote = '"' := rfl

@[simp] theorem quote_literal : literal.quote = '\x27' := rfl

theorem prepend_some : Reading.prepend cs (some (ds, rest)) = some (cs ++ ds, rest) := rfl

theorem readShort_of_spells (h : e.Spells ds c) :
    q.readShort (some e) (ds ++ rest) = (q.readShort none rest).prepend [c] := by
  induction h with
  | last h => simp only [List.singleton_append, readShort, h]
  | more h _ ih => simpa only [List.cons_append, readShort, h] using ih

theorem readShort_of_writes (h : q.Writes c ws) :
    q.readShort none (ws ++ rest) = (q.readShort none rest).prepend [c] := by
  cases h with
  | plain ht hq hb =>
    have hescape : ¬ (q.escapes && decide (c = '\\')) := by simpa using hb
    simp only [List.singleton_append, readShort, if_neg hq, if_neg hescape, if_pos ht]
  | escaped he hq hs =>
    simp only [List.cons_append, readShort, if_neg hq, he, decide_true, Bool.and_self, if_true,
      readShort_of_spells hs]

theorem readShort_flatMap {f : Char → List Char} (h : ∀ c ∈ cs, q.Writes c (f c))
    (rest : List Char) : q.readShort none (cs.flatMap f ++ q.quote :: rest) = some (cs, rest) := by
  induction cs with
  | nil => simp [readShort]
  | cons c cs ih =>
    have hcs := ih fun d hd => h d (List.mem_cons_of_mem c hd)
    rw [List.flatMap_cons, List.append_assoc, readShort_of_writes (h c List.mem_cons_self), hcs]
    rfl

/-- A string that is not empty between single quotes does not begin with three of them, and an empty
one does not either where no quote follows. -/
theorem read_short (h : q.readShort none ws = some (cs, d :: rest)) (hd : d ≠ q.quote) :
    q.read (q.quote :: ws) = some (String.ofList cs, d :: rest) := by
  have hnot : ∀ a b tail, ws = a :: b :: tail → ¬ (a = q.quote ∧ b = q.quote) := by
    rintro a b tail rfl ⟨rfl, rfl⟩
    simp [readShort] at h
    exact hd h.2.1.symm
  match ws with
  | [] => simp [readShort] at h
  | [a] => simp [read, h]
  | a :: b :: tail => simp [read, hnot a b tail rfl, h]

/-- The place behind a number of quotes of which none closes. -/
def behind : Nat → Place
  | 0 => .plain
  | n + 1 => .quotes (n + 1)

theorem behind_zero : behind 0 = .plain := rfl

theorem readLong_behind (hc : c ≠ q.quote) (hn : n ≤ 2) : q.readLong (behind n) (c :: rest) =
    match q.stepPlain c with
    | some (cs, p) => (q.readLong p rest).prepend (List.replicate n q.quote ++ cs)
    | none => none := by
  cases n with
  | zero =>
    simp only [behind, readLong, step]
    cases q.stepPlain c <;> rfl
  | succ n =>
    have hopen : ¬ 3 ≤ n + 1 := by omega
    simp only [behind, readLong, if_neg hc, if_neg hopen, step]
    cases q.stepPlain c <;> rfl

theorem prepend_nil (r : Reading (List Char)) : r.prepend [] = r := by
  cases r <;> rfl

theorem readLong_quote (hn : n ≤ 3) :
    q.readLong (behind n) (q.quote :: rest) = q.readLong (behind (n + 1)) rest := by
  cases n with
  | zero => simp [behind, readLong, step, stepPlain, prepend_nil]
  | succ n =>
    have hopen : ¬ 4 ≤ n + 1 := by omega
    simp only [behind, readLong, if_true, if_neg hopen]

/-- Up to two quotes before the closing ones are text. -/
theorem readLong_close (hn : n ≤ 2) (hd : d ≠ q.quote) :
    q.readLong (behind n) (q.quote :: q.quote :: q.quote :: d :: rest) =
      some (List.replicate n q.quote, d :: rest) := by
  rw [readLong_quote (by omega), readLong_quote (by omega)]
  have hclosed : 3 ≤ n + 3 := by omega
  by_cases htwo : n = 2
  · subst htwo
    simp [behind, readLong]
  · rw [readLong_quote (by omega)]
    simp only [behind, readLong, if_neg hd, if_pos hclosed]
    rfl

theorem stepEscape_of_step (h : e.step d ≠ .bad) : stepEscape d e =
    match e.step d with
    | .more e => some ([], .escape e)
    | .char c => some ([c], .plain)
    | .bad => none := by
  unfold stepEscape
  split
  all_goals first | exact absurd rfl h | rfl

theorem readLong_of_spells (h : e.Spells ds c) :
    q.readLong (.escape e) (ds ++ rest) = (q.readLong .plain rest).prepend [c] := by
  induction h with
  | @last e d c h =>
    have hstep := stepEscape_of_step (d := d) (e := e) (by simp [h])
    rw [h] at hstep
    simp only [List.singleton_append, readLong, step, hstep]
  | @more e e' d c ds h _ ih =>
    have hstep := stepEscape_of_step (d := d) (e := e) (by simp [h])
    rw [h] at hstep
    simpa only [List.cons_append, readLong, step, hstep, prepend_nil] using ih

/-- How a form may write the text between triple quotes, behind a run of quotes. -/
inductive Body (q : Quotation) : Nat → List Char → List Char → Prop
  | nil {run : Nat} (hr : run ≤ 2) : q.Body run [] []
  | quote {run : Nat} {cs ws : List Char} (hr : run < 2) (h : q.Body (run + 1) cs ws) :
      q.Body run (q.quote :: cs) (q.quote :: ws)
  | feed {run : Nat} {cs ws : List Char} (hr : run ≤ 2) (h : q.Body 0 cs ws) :
      q.Body run ('\n' :: cs) ('\n' :: ws)
  | char {run : Nat} {c : Char} {cs w ws : List Char} (hr : run ≤ 2) (hc : q.Writes c w)
      (h : q.Body 0 cs ws) : q.Body run (c :: cs) (w ++ ws)

theorem Writes.head (h : q.Writes c ws) : ∃ d tail, ws = d :: tail ∧ isText d ∧ d ≠ q.quote := by
  cases h with
  | plain ht hq _ => exact ⟨c, [], rfl, ht, hq⟩
  | escaped _ hq _ => exact ⟨'\\', _, rfl, by decide, hq⟩

theorem readLong_of_writes (h : q.Writes c ws) (hn : n ≤ 2) :
    q.readLong (behind n) (ws ++ rest) =
      (q.readLong .plain rest).prepend (List.replicate n q.quote ++ [c]) := by
  cases h with
  | plain ht hq hb =>
    have hescape : ¬ (q.escapes && decide (c = '\\')) := by simpa using hb
    obtain ⟨hfeed, hreturn⟩ := ne_break_of_isText ht
    have hplain : q.stepPlain c = some ([c], .plain) := by
      simp only [stepPlain, if_neg hq, if_neg hescape, if_neg hfeed, if_neg hreturn, if_pos ht]
    rw [List.singleton_append, readLong_behind hq hn, hplain]
  | escaped he hq hs =>
    have hplain : q.stepPlain '\\' = some ([], .escape .opened) := by
      simp only [stepPlain, if_neg hq, he, decide_true, Bool.and_self, if_true]
    rw [List.cons_append, readLong_behind hq hn, hplain]
    simp only [readLong_of_spells hs, List.append_nil]
    cases q.readLong .plain rest with
    | none => rfl
    | some r => simp [Reading.prepend]

theorem readLong_of_body (h : q.Body run cs ws) (hq : isText q.quote) (hd : d ≠ q.quote)
    (rest : List Char) : q.readLong (behind run) (ws ++ q.quote :: q.quote :: q.quote :: d :: rest) =
      some (List.replicate run q.quote ++ cs, d :: rest) := by
  induction h with
  | nil hr => rw [List.nil_append, List.append_nil, readLong_close hr hd]
  | quote hr _ ih =>
    rw [List.cons_append, readLong_quote (by omega), ih, List.replicate_succ', List.append_assoc]
    rfl
  | feed hr _ ih =>
    have hne : '\n' ≠ q.quote := fun h => (ne_break_of_isText hq).1 h.symm
    have hplain : q.stepPlain '\n' = some (['\n'], .plain) := by
      simp [stepPlain, hne]
    rw [List.cons_append, readLong_behind hne hr, hplain]
    simp only
    rw [← behind_zero, ih, prepend_some, List.append_assoc]
    rfl
  | char hr hc _ ih =>
    rw [List.append_assoc, readLong_of_writes hc hr, ← behind_zero, ih,
      prepend_some, List.append_assoc]
    rfl

/-- A body without line breaks does not begin with one. -/
theorem Body.dropBreak_eq (h : q.Body run cs ws) (hq : isText q.quote) (hcs : '\n' ∉ cs) :
    dropBreak (ws ++ q.quote :: rest) = ws ++ q.quote :: rest := by
  have hstay {d : Char} (hd : isText d) (tail : List Char) : dropBreak (d :: tail) = d :: tail := by
    obtain ⟨hfeed, hreturn⟩ := ne_break_of_isText hd
    unfold dropBreak
    split
    · next hw => exact absurd (List.cons.inj hw).1 hfeed
    · next hw => exact absurd (List.cons.inj hw).1 hreturn
    · rfl
  cases h with
  | nil => exact hstay hq rest
  | quote => exact hstay hq _
  | feed => exact absurd List.mem_cons_self hcs
  | char _ hc _ =>
    obtain ⟨d, tail, rfl, hd, -⟩ := hc.head
    rw [List.append_assoc, List.cons_append, hstay hd]

theorem dropBreak_opening (h : q.Body run cs ws) (hq : isText q.quote) :
    dropBreak (Printer.opening cs ++ (ws ++ q.quote :: rest)) = ws ++ q.quote :: rest := by
  by_cases hcs : '\n' ∈ cs
  · have hopening : Printer.opening cs = ['\n'] := by simp [Printer.opening, hcs]
    rw [hopening]
    rfl
  · have hopening : Printer.opening cs = [] := by simp [Printer.opening, hcs]
    rw [hopening, List.nil_append, h.dropBreak_eq hq hcs]

theorem read_long (h : q.Body 0 cs ws) (hq : isText q.quote) (hd : d ≠ q.quote)
    (rest : List Char) : q.read (q.quote :: q.quote :: q.quote :: (Printer.opening cs ++
      (ws ++ q.quote :: q.quote :: q.quote :: d :: rest))) = some (String.ofList cs, d :: rest) := by
  have hread := readLong_of_body h hq hd rest
  simp only [read, and_self, if_true, dropBreak_opening h hq]
  rw [← behind_zero, hread]
  rfl

end Quotation

namespace Printer

theorem toNat_lt_of_not_isText (h : ¬ isText c) : c.toNat < 128 := by
  by_contra hlarge
  have hle : ' ' ≤ c := by
    rw [Char.le_def, UInt32.le_iff_toNat_le]
    exact Nat.le_trans (show 32 ≤ 128 by decide) (Nat.le_of_not_lt hlarge)
  have hne : c ≠ '\x7f' := by
    rintro rfl
    exact hlarge (by decide)
  exact h (by simp [isText, hle, hne])

theorem writes_escape (hquote : c ≠ '"') : Quotation.basic.Writes c (escape c) := by
  have hspelled {ds : List Char} (hs : Escape.Spells .opened ds c) :
      Quotation.basic.Writes c ('\\' :: ds) := .escaped rfl (by decide) hs
  unfold escape
  split_ifs with hbackslash htab hback hform hreturn htext
  · subst hbackslash
    exact hspelled (.last rfl)
  · subst htab
    exact hspelled (.last rfl)
  · subst hback
    exact hspelled (.last rfl)
  · subst hform
    exact hspelled (.last rfl)
  · subst hreturn
    exact hspelled (.last rfl)
  · exact .plain htext hquote fun _ => hbackslash
  · have hsmall : c.toNat < 16 ^ (3 + 1) :=
      Nat.lt_of_lt_of_le (toNat_lt_of_not_isText htext) (by decide)
    have hscalar : scalar? (0 * 16 ^ (3 + 1) + c.toNat) = some c := by
      rw [Nat.zero_mul, Nat.zero_add, Escape.scalar?_toNat]
    have hdigits : Escape.Spells (.digits 4 0) (upperHex c.toNat) c :=
      Escape.spells_digits hsmall hscalar
    exact hspelled (.more rfl hdigits)

theorem writes_quote : Quotation.basic.Writes '"' ['\\', '"'] :=
  .escaped rfl (by decide) (.last rfl)

theorem writes_escapeShort (c : Char) : Quotation.basic.Writes c (escapeShort c) := by
  unfold escapeShort
  split_ifs with hquote hfeed
  · subst hquote
    exact writes_quote
  · subst hfeed
    exact .escaped rfl (by decide) (.last rfl)
  · exact writes_escape hquote

theorem body_escapeLong (cs : List Char) (hr : run ≤ 2) :
    Quotation.basic.Body run cs (escapeLong run cs) := by
  induction cs generalizing run with
  | nil => exact .nil hr
  | cons c cs ih =>
    by_cases hquote : c = '"'
    · subst hquote
      by_cases htwo : run = 2
      · rw [escapeLong, if_pos rfl, if_pos htwo]
        exact .char hr writes_quote (ih (by decide))
      · rw [escapeLong, if_pos rfl, if_neg htwo]
        exact .quote (by omega) (ih (by omega))
    · rw [escapeLong, if_neg hquote]
      by_cases hfeed : c = '\n'
      · subst hfeed
        exact .feed hr (ih (by decide))
      · rw [if_neg hfeed]
        exact .char hr (writes_escape hquote) (ih (by decide))

theorem le_longestRun_go (c : Char) (cs : List Char) : run ≤ longestRun.go c run cs := by
  induction cs generalizing run with
  | nil => exact Nat.le_refl run
  | cons d cs ih =>
    unfold longestRun.go
    split
    · exact Nat.le_trans (Nat.le_succ run) ih
    · exact Nat.le_max_left run _

theorem body_literal (hr : longestRun.go '\x27' run cs ≤ 2) (hcs : ¬ cs.any isControl) :
    Quotation.literal.Body run cs cs := by
  induction cs generalizing run with
  | nil => exact .nil hr
  | cons c cs ih =>
    have hrun : run ≤ 2 := Nat.le_trans (le_longestRun_go '\x27' (c :: cs)) hr
    obtain ⟨hc, hcs⟩ : ¬ isControl c ∧ ¬ cs.any isControl := by simpa using hcs
    by_cases hquote : c = '\x27'
    · subst hquote
      rw [longestRun.go, if_pos rfl] at hr
      exact .quote (Nat.le_trans (le_longestRun_go '\x27' cs) hr) (ih hr hcs)
    · rw [longestRun.go, if_neg hquote] at hr
      have htail := ih (Nat.le_trans (Nat.le_max_right run _) hr) hcs
      by_cases hfeed : c = '\n'
      · subst hfeed
        exact .feed hrun htail
      · have htext : isText c := by simpa [isControl, hfeed] using hc
        exact .char hrun (.plain htext hquote Bool.false_ne_true.elim) htail

theorem not_mem_of_longestRun (h : longestRun c cs = 0) : c ∉ cs := by
  induction cs with
  | nil => exact List.not_mem_nil
  | cons d cs ih =>
    rw [longestRun, longestRun.go] at h
    split at h
    · have hle : 0 + 1 ≤ longestRun.go c (0 + 1) cs := le_longestRun_go c cs
      rw [h] at hle
      exact absurd hle (by decide)
    · next hne =>
      have hcs : longestRun c cs = 0 := by
        rw [Nat.max_eq_right (Nat.zero_le _)] at h
        exact h
      rw [List.mem_cons]
      rintro (rfl | hmem)
      · exact hne rfl
      · exact ih hcs hmem

/-- What is written in one of the forms, to be read back where a line ends behind it. -/
def Quotes (cs ws : List Char) : Prop :=
  ∃ q, (q = Quotation.basic ∨ q = Quotation.literal) ∧ (∃ tail, ws = q.quote :: tail) ∧
    ∀ rest, q.read (ws ++ '\n' :: rest) = some (String.ofList cs, '\n' :: rest)

theorem quotes_shortBasic (cs : List Char) : Quotes cs (shortBasic cs) := by
  refine ⟨.basic, .inl rfl, ⟨_, rfl⟩, fun rest => ?_⟩
  have hread : Quotation.basic.readShort none (cs.flatMap escapeShort ++ '"' :: '\n' :: rest) =
      some (cs, '\n' :: rest) := Quotation.readShort_flatMap (fun c _ => writes_escapeShort c) _
  simpa [shortBasic] using Quotation.read_short hread (by decide)

theorem quotes_shortLiteral (hquote : '\x27' ∉ cs) (hcs : ∀ c ∈ cs, isText c) :
    Quotes cs (shortLiteral cs) := by
  refine ⟨.literal, .inr rfl, ⟨_, rfl⟩, fun rest => ?_⟩
  have hwrites (c : Char) (hc : c ∈ cs) : Quotation.literal.Writes c [c] := by
    refine .plain (hcs c hc) ?_ Bool.false_ne_true.elim
    rintro rfl
    exact hquote hc
  have hread : Quotation.literal.readShort none (cs ++ '\x27' :: '\n' :: rest) =
      some (cs, '\n' :: rest) := by
    have h := Quotation.readShort_flatMap hwrites ('\n' :: rest)
    rwa [List.flatMap_singleton'] at h
  simpa [shortLiteral] using Quotation.read_short hread (by decide)

theorem quotes_longBasic (cs : List Char) : Quotes cs (longBasic cs) := by
  refine ⟨.basic, .inl rfl, ⟨_, rfl⟩, fun rest => ?_⟩
  have hbody := body_escapeLong cs (Nat.zero_le 2)
  have hread := Quotation.read_long (d := '\n') hbody (by decide) (by decide) rest
  simpa [longBasic] using hread

theorem quotes_longLiteral (hquotes : longestRun '\x27' cs ≤ 2) (hcs : ¬ cs.any isControl) :
    Quotes cs (longLiteral cs) := by
  refine ⟨.literal, .inr rfl, ⟨_, rfl⟩, fun rest => ?_⟩
  have hbody := body_literal hquotes hcs
  have hread := Quotation.read_long (d := '\n') hbody (by decide) (by decide) rest
  simpa [longLiteral] using hread

/-- A string is written in a form that holds it. -/
theorem quotes_string (cs : List Char) : Quotes cs (string cs) := by
  simp only [string]
  split_ifs with hcontrol hlines hplain hapostrophes hquotes hfew hlines
  · exact quotes_longBasic cs
  · exact quotes_shortBasic cs
  · exact quotes_shortBasic cs
  · simp only [Bool.and_eq_true, decide_eq_true_eq, Bool.not_eq_true', List.contains_eq_mem,
      decide_eq_false_iff_not] at hapostrophes
    obtain ⟨hnone, hline⟩ := hapostrophes
    refine quotes_shortLiteral (not_mem_of_longestRun hnone) fun c hc => ?_
    have hnot : ¬ isControl c := fun h => hcontrol (List.any_eq_true.mpr ⟨c, hc, h⟩)
    have hne : c ≠ '\n' := by
      rintro rfl
      exact hline hc
    simpa [isControl, hne] using hnot
  · exact quotes_longBasic cs
  · exact quotes_longLiteral hfew hcontrol
  · exact quotes_longBasic cs
  · exact quotes_shortBasic cs

end Printer

end FirmwareHost.Toml
