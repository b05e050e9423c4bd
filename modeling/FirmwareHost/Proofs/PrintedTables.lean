import FirmwareHost.Proofs.Quotations
import FirmwareHost.Proofs.SignedIntegers
import Mathlib.Algebra.BigOperators.Group.List.Basic
import Mathlib.Data.List.Nodup

/-! A written table is read back as the same table. Its keys are bare and distinct, and each of its
values ends where its line does. -/

namespace FirmwareHost.Toml

variable {c : Char} {cs ds rest : List Char} {n w : Nat}

theorem ne_of_kind {kind : Char → Bool} {d : Char} (hc : kind c) (hd : ¬ kind d) : c ≠ d := by
  rintro rfl
  exact hd hc

theorem not_isBlank_of_kind {kind : Char → Bool} (hc : kind c) (hspace : ¬ kind ' ')
    (htab : ¬ kind '\t') : ¬ isBlank c := by
  have hne : c ≠ ' ' := ne_of_kind hc hspace
  have hne' : c ≠ '\t' := ne_of_kind hc htab
  simp [isBlank, hne, hne']

theorem toNat_of_isDigit (h : c.isDigit) : 48 ≤ c.toNat ∧ c.toNat ≤ 57 := by
  simpa [Char.isDigit, UInt32.le_iff_toNat_le] using h

namespace Moment

/-- Digits up to the end of a line. No mark of a date or time of day stands among them. -/
def Digits (rest cs : List Char) : Prop := ∃ ds, (∀ c ∈ ds, c.isDigit) ∧ cs = ds ++ '\n' :: rest

theorem Digits.of_readNumber {v m : Nat} (hcs : Digits rest cs)
    (h : readNumber w v cs = some (m, ds)) : Digits rest ds := by
  induction w generalizing v cs with
  | zero =>
    obtain ⟨-, rfl⟩ : v = m ∧ cs = ds := by simpa [readNumber] using h
    exact hcs
  | succ w ih =>
    obtain ⟨front, hfront, rfl⟩ := hcs
    cases front with
    | nil => simp [readNumber] at h
    | cons c front =>
      have hc : c.isDigit := hfront c List.mem_cons_self
      simp only [List.cons_append, readNumber, hc, if_true] at h
      exact ih ⟨front, fun d hd => hfront d (List.mem_cons_of_mem c hd), rfl⟩ h

theorem Digits.of_readField {low high m : Nat} (hcs : Digits rest cs)
    (h : readField low high cs = some (m, ds)) : Digits rest ds :=
  hcs.of_readNumber (Option.filter_eq_some_iff.mp h).1

theorem Digits.readChar (hcs : Digits rest cs) (hd : ¬ c.isDigit) (hc : c ≠ '\n') :
    readChar c cs = none := by
  obtain ⟨front, hfront, rfl⟩ := hcs
  cases front with
  | nil => simp [Moment.readChar, hc.symm]
  | cons d front =>
    have hne : d ≠ c := ne_of_kind (hfront d List.mem_cons_self) hd
    simp [Moment.readChar, hne]

theorem Digits.skip (hcs : Digits rest cs) : skip cs = none := by
  have hdate : skipDate cs = none := by
    unfold skipDate
    cases hyear : readNumber 4 0 cs with
    | none => rfl
    | some r =>
      have hdash := (hcs.of_readNumber hyear).readChar (c := '-') (by decide) (by decide)
      simp [hdash]
  have htime : skipTime cs = none := by
    unfold skipTime
    cases hhour : readField 0 23 cs with
    | none => rfl
    | some r =>
      have hcolon := (hcs.of_readField hhour).readChar (c := ':') (by decide) (by decide)
      simp [hcolon]
  simp only [Moment.skip, hdate, htime]

theorem skip_of_sign (c : Char) (h : ¬ c.isDigit) (cs : List Char) : skip (c :: cs) = none := by
  simp [skip, skipDate, skipTime, readNumber, readField, h]

end Moment

namespace Number

theorem digitBelow_of_isDigit (h : c.isDigit) : digitBelow 10 c = some (c.toNat - 48) := by
  have hrange := toNat_of_isDigit h
  have hsmall : c.toNat - 48 < 10 := by omega
  simp [digitBelow, Hex.digit?_eq, hrange, hsmall]

theorem readMore_digits (hds : ∀ c ∈ ds, c.isDigit) (rest : List Char) :
    readMore 10 false (ds ++ '\n' :: rest) = some (ds.map fun c => c.toNat - 48, '\n' :: rest) := by
  induction ds with
  | nil =>
    have hfeed : digitBelow 10 '\n' = none := by decide
    simp [readMore, hfeed]
  | cons c ds ih =>
    have hc := digitBelow_of_isDigit (hds c List.mem_cons_self)
    rw [List.cons_append, readMore, hc]
    simp only [ih fun d hd => hds d (List.mem_cons_of_mem c hd)]
    rfl

theorem eq_zero_of_toDigits (h : Nat.toDigits 10 n = '0' :: cs) : n = 0 ∧ cs = [] := by
  induction n using Nat.strong_induction_on generalizing cs with
  | _ n ih =>
    by_cases hsmall : n < 10
    · rw [Nat.toDigits_of_lt_base hsmall] at h
      obtain ⟨hdigit, rfl⟩ := List.cons.inj h
      have hall : ∀ n < 10, n.digitChar = '0' → n = 0 := by decide
      exact ⟨hall n hsmall hdigit, rfl⟩
    · have hlarge : 10 ≤ n := Nat.le_of_not_lt hsmall
      rw [Nat.toDigits_of_base_le (by decide) hlarge] at h
      obtain ⟨d, ds, hd⟩ := List.exists_cons_of_ne_nil (Nat.toDigits_ne_nil (n := n / 10) (b := 10))
      rw [hd, List.cons_append] at h
      obtain ⟨rfl, -⟩ := List.cons.inj h
      have hzero := (ih (n / 10) (by omega) hd).1
      omega

theorem isDigit_toDigits (n : Nat) : ∀ c ∈ Nat.toDigits 10 n, c.isDigit := fun _ hc =>
  Nat.isDigit_of_mem_toDigits (by decide) (by decide) hc

theorem toDigits_begins (n : Nat) : ∃ c cs, Nat.toDigits 10 n = c :: cs ∧ c.isDigit ∧
    ∀ d ∈ cs, d.isDigit := by
  obtain ⟨c, cs, hcs⟩ := List.exists_cons_of_ne_nil (Nat.toDigits_ne_nil (n := n) (b := 10))
  have hdigits := isDigit_toDigits n
  rw [hcs] at hdigits
  obtain ⟨hc, hmore⟩ := List.forall_mem_cons.mp hdigits
  exact ⟨c, cs, hcs, hc, hmore⟩

/-- The digits of a number have no needless zero in front. -/
theorem readUnpadded_toDigits (n : Nat) : readUnpadded (Nat.toDigits 10 n ++ '\n' :: rest) =
    some ((Nat.toDigits 10 n).map fun c => c.toNat - 48, '\n' :: rest) := by
  obtain ⟨c, cs, hcs, hc, hmore⟩ := toDigits_begins n
  by_cases hzero : c = '0'
  · subst hzero
    obtain ⟨-, rfl⟩ := eq_zero_of_toDigits hcs
    rw [hcs]
    rfl
  · have hread : readUnpadded (c :: (cs ++ '\n' :: rest)) =
        readDigits 10 (c :: (cs ++ '\n' :: rest)) := by
      simp [readUnpadded, hzero]
    rw [hcs, List.cons_append, hread, readDigits, readMore, digitBelow_of_isDigit hc]
    simp only [readMore_digits hmore rest]
    rfl

theorem ofDigits_toDigits (n : Nat) :
    ofDigits 10 ((Nat.toDigits 10 n).map fun c => c.toNat - 48) = n := by
  rw [ofDigits, List.foldl_map]
  exact Nat.ofDigitChars_ten_toDigits

theorem readDecimal_toDigits (negative : Bool) (n : Nat) :
    readDecimal negative (Nat.toDigits 10 n ++ '\n' :: rest) =
      (integer? (signed negative n)).map fun v => (v, '\n' :: rest) := by
  simp only [readDecimal, readUnpadded_toDigits, Option.bind_eq_bind, Option.bind_some,
    ofDigits_toDigits]
  have hend : ¬ beginsFloat ('\n' :: rest) := by simp [beginsFloat]
  rw [if_neg hend]
  cases integer? (signed negative n) <;> rfl

theorem read_toDigits (n : Nat) (rest : List Char) :
    read (Nat.toDigits 10 n ++ '\n' :: rest) =
      readDecimal false (Nat.toDigits 10 n ++ '\n' :: rest) := by
  obtain ⟨c, cs, hcs, hc, -⟩ := toDigits_begins n
  by_cases hzero : c = '0'
  · subst hzero
    obtain ⟨-, rfl⟩ := eq_zero_of_toDigits hcs
    rw [hcs]
    rfl
  · have hplus : c ≠ '+' := ne_of_kind hc (by decide)
    have hminus : c ≠ '-' := ne_of_kind hc (by decide)
    have hinf : c ≠ 'i' := ne_of_kind hc (by decide)
    have hnan : c ≠ 'n' := ne_of_kind hc (by decide)
    rw [hcs, List.cons_append]
    simp [read, readSign, hzero, hplus, hminus, hinf, hnan]

theorem read_minus_toDigits (n : Nat) (rest : List Char) :
    read ('-' :: (Nat.toDigits 10 n ++ '\n' :: rest)) =
      readDecimal true (Nat.toDigits 10 n ++ '\n' :: rest) := by
  obtain ⟨c, cs, hcs, hc, -⟩ := toDigits_begins n
  have hinf : c ≠ 'i' := ne_of_kind hc (by decide)
  have hnan : c ≠ 'n' := ne_of_kind hc (by decide)
  rw [hcs, List.cons_append]
  simp [read, readSign, hinf, hnan]

end Number

def Scalar.value : Scalar → Value
  | .string s => .string s
  | .integer n => .integer n

theorem Printer.scalar_ofNat (n : Nat) : scalar (.integer (.ofNat n)) = Nat.toDigits 10 n :=
  Nat.toList_repr

theorem Printer.scalar_negSucc (n : Nat) :
    scalar (.integer (.negSucc n)) = '-' :: Nat.toDigits 10 (n + 1) := by
  simp [scalar, toString, Int.repr]

namespace Reader

def beginsNumber (c : Char) : Bool := c = '-' || c.isDigit

theorem readValue_number (hc : beginsNumber c) (hskip : Moment.skip (c :: cs) = none)
    (depth : Nat) : readValue depth (c :: cs) = Number.read (c :: cs) := by
  have hopen : c ≠ '[' := ne_of_kind hc (by decide)
  have hbrace : c ≠ '\x7b' := ne_of_kind hc (by decide)
  have hdouble : c ≠ '"' := ne_of_kind hc (by decide)
  have hsingle : c ≠ '\x27' := ne_of_kind hc (by decide)
  have htrue : c ≠ 't' := ne_of_kind hc (by decide)
  have hfalse : c ≠ 'f' := ne_of_kind hc (by decide)
  simp [readValue, readScalar, hopen, hbrace, hdouble, hsingle, htrue, hfalse, hskip]

theorem readValue_integer {n : Int} (hn : (Value.integer n).Signed) (depth : Nat)
    (rest : List Char) : readValue depth (Printer.scalar (.integer n) ++ '\n' :: rest) =
      some (.integer n, '\n' :: rest) := by
  have hfits : Number.integer? n = some (.integer n) := if_pos hn
  cases n with
  | ofNat m =>
    obtain ⟨c, cs, hcs, hc, -⟩ := Number.toDigits_begins m
    have hdigits : Moment.Digits rest (Nat.toDigits 10 m ++ '\n' :: rest) :=
      ⟨_, Number.isDigit_toDigits m, rfl⟩
    have hskip := hdigits.skip
    have hbegins : beginsNumber c := by simp [beginsNumber, hc]
    have hread := Number.read_toDigits m rest
    rw [Number.readDecimal_toDigits, Number.signed] at hread
    rw [Printer.scalar_ofNat]
    rw [hcs, List.cons_append] at hskip hread ⊢
    rw [readValue_number hbegins hskip, hread]
    exact congrArg (Option.map fun v => (v, '\n' :: rest)) hfits
  | negSucc m =>
    have hskip := Moment.skip_of_sign '-' (by decide) (Nat.toDigits 10 (m + 1) ++ '\n' :: rest)
    rw [Printer.scalar_negSucc, List.cons_append, readValue_number rfl hskip,
      Number.read_minus_toDigits, Number.readDecimal_toDigits]
    exact congrArg (Option.map fun v => (v, '\n' :: rest)) hfits

theorem readValue_string (s : String) (depth : Nat) (rest : List Char) :
    readValue depth (Printer.scalar (.string s) ++ '\n' :: rest) =
      some (.string s, '\n' :: rest) := by
  obtain ⟨q, hq, ⟨tail, htail⟩, hread⟩ := Printer.quotes_string s.toList
  have hread := hread rest
  rw [htail, List.cons_append, String.ofList_toList] at hread
  rw [Printer.scalar, htail, List.cons_append]
  rcases hq with rfl | rfl
  · simp only [Quotation.quote_basic] at hread ⊢
    simp [readValue, readScalar, readString, hread]
  · simp only [Quotation.quote_literal] at hread ⊢
    simp [readValue, readScalar, readString, hread]

theorem readValue_scalar {v : Scalar} (hv : v.value.Signed) (depth : Nat) (rest : List Char) :
    readValue depth (Printer.scalar v ++ '\n' :: rest) = some (v.value, '\n' :: rest) := by
  cases v with
  | string s => exact readValue_string s depth rest
  | integer n => exact readValue_integer hv depth rest

theorem skipBlanks_of_head (hc : ¬ isBlank c) : skipBlanks (c :: cs) = c :: cs :=
  List.dropWhile_cons_of_neg hc

theorem skipBlanks_scalar (v : Scalar) (rest : List Char) :
    skipBlanks (Printer.scalar v ++ rest) = Printer.scalar v ++ rest := by
  obtain ⟨c, tail, htext, hc⟩ : ∃ c tail, Printer.scalar v = c :: tail ∧ ¬ isBlank c := by
    match v with
    | .string s =>
      obtain ⟨q, hq, ⟨tail, htail⟩, -⟩ := Printer.quotes_string s.toList
      refine ⟨q.quote, tail, htail, ?_⟩
      rcases hq with rfl | rfl <;> decide
    | .integer (.ofNat m) =>
      obtain ⟨c, cs, hcs, hc, -⟩ := Number.toDigits_begins m
      have hblank := not_isBlank_of_kind hc (by decide) (by decide)
      exact ⟨c, cs, (Printer.scalar_ofNat m).trans hcs, hblank⟩
    | .integer (.negSucc m) =>
      exact ⟨'-', _, Printer.scalar_negSucc m, by decide⟩
  rw [htext, List.cons_append, skipBlanks_of_head hc]

/-- A key that needs no quotes. -/
def Bare (key : String) : Prop := key.toList ≠ [] ∧ ∀ c ∈ key.toList, isBare c

variable {key : String} {v : Scalar}

theorem Bare.begins (h : Bare key) : ∃ c tail, key.toList = c :: tail ∧ isBare c ∧
    ∀ d ∈ tail, isBare d := by
  obtain ⟨c, tail, hkey⟩ := List.exists_cons_of_ne_nil h.1
  have hall := h.2
  rw [hkey] at hall
  obtain ⟨hc, htail⟩ := List.forall_mem_cons.mp hall
  exact ⟨c, tail, hkey, hc, htail⟩

theorem Bare.begins_line (h : Bare key) (v : Scalar) (rest : List Char) :
    ∃ c line, Printer.pair key v ++ rest = c :: line ∧ isBare c := by
  obtain ⟨c, tail, hkey, hc, -⟩ := h.begins
  rw [Printer.pair, hkey]
  exact ⟨c, _, rfl, hc⟩

theorem not_isBlank_of_isBare (hc : isBare c) : ¬ isBlank c :=
  not_isBlank_of_kind hc (by decide) (by decide)

theorem readKey_bare (h : Bare key) (rest : List Char) :
    readKey (key.toList ++ ' ' :: '=' :: rest) = some ([key], '=' :: rest) := by
  obtain ⟨c, tail, hkey, hc, htail⟩ := h.begins
  have hdouble : c ≠ '"' := ne_of_kind hc (by decide)
  have hsingle : c ≠ '\x27' := ne_of_kind hc (by decide)
  have hspace : ¬ isBare ' ' := by decide
  have hsimple : readSimpleKey (c :: (tail ++ ' ' :: '=' :: rest)) =
      some (key, ' ' :: '=' :: rest) := by
    rw [readSimpleKey, if_neg hdouble, if_neg hsingle, if_pos hc,
      List.takeWhile_append_of_pos htail, List.dropWhile_append_of_pos htail,
      List.takeWhile_cons_of_neg hspace, List.dropWhile_cons_of_neg hspace, List.append_nil, ← hkey,
      String.ofList_toList]
  have hend : skipBlanks (' ' :: '=' :: rest) = '=' :: rest := rfl
  rw [hkey, List.cons_append, readKey, depthLimit, readKeyParts,
    skipBlanks_of_head (not_isBlank_of_isBare hc), hsimple]
  simp [hend]

theorem readLine_pair (hkey : Bare key) (hv : v.value.Signed) (rest : List Char) :
    readLine (Printer.pair key v ++ rest) = some (.pair [key] v.value, rest) := by
  obtain ⟨c, line, hbegins, hc⟩ := hkey.begins_line v rest
  have hhash : c ≠ '#' := ne_of_kind hc (by decide)
  have hfeed : c ≠ '\n' := ne_of_kind hc (by decide)
  have hreturn : c ≠ '\r' := ne_of_kind hc (by decide)
  have hopen : c ≠ '[' := ne_of_kind hc (by decide)
  have hpair : readPair (readValue depthLimit) (Printer.pair key v ++ rest) =
      some (([key], v.value), '\n' :: rest) := by
    have hkey := readKey_bare hkey (' ' :: (Printer.scalar v ++ '\n' :: rest))
    have hblank : skipBlanks (' ' :: (Printer.scalar v ++ '\n' :: rest)) =
        Printer.scalar v ++ '\n' :: rest := skipBlanks_scalar v _
    have hvalue := readValue_scalar hv depthLimit rest
    simp only [Printer.pair, List.append_assoc, List.cons_append, List.nil_append, readPair, hkey,
      Option.bind_eq_bind, Option.bind_some, Moment.readChar, if_true, hblank, hvalue]
    rfl
  have htrailing : readTrailing ('\n' :: rest) = some rest := rfl
  rw [hbegins] at hpair ⊢
  simp [readLine, hhash, hfeed, hreturn, hopen, hpair, htrailing]

theorem skipBlanks_pair (hkey : Bare key) (v : Scalar) (rest : List Char) :
    skipBlanks (Printer.pair key v ++ rest) = Printer.pair key v ++ rest ∧
      Printer.pair key v ++ rest ≠ [] := by
  obtain ⟨c, line, hbegins, hc⟩ := hkey.begins_line v rest
  rw [hbegins]
  exact ⟨skipBlanks_of_head (not_isBlank_of_isBare hc), List.cons_ne_nil c line⟩

variable {pairs : List (String × Scalar)} {fuel : Nat}

theorem readLines_pairs (hpairs : ∀ p ∈ pairs, Bare p.1 ∧ p.2.value.Signed)
    (hfuel : pairs.length < fuel) : readLines fuel (pairs.flatMap fun p => Printer.pair p.1 p.2) =
      some (pairs.map fun p => .pair [p.1] p.2.value) := by
  induction pairs generalizing fuel with
  | nil =>
    obtain ⟨fuel, rfl⟩ := Nat.exists_eq_succ_of_ne_zero (Nat.ne_of_gt hfuel)
    rfl
  | cons p pairs ih =>
    obtain ⟨fuel, rfl⟩ := Nat.exists_eq_succ_of_ne_zero (Nat.ne_of_gt (Nat.zero_lt_of_lt hfuel))
    obtain ⟨hkey, hv⟩ := hpairs p List.mem_cons_self
    have hmore := ih (fun r hr => hpairs r (List.mem_cons_of_mem p hr))
      (Nat.lt_of_succ_lt_succ hfuel)
    obtain ⟨hblanks, hne⟩ := skipBlanks_pair hkey p.2
      (pairs.flatMap fun p => Printer.pair p.1 p.2)
    have hline := readLine_pair hkey hv (pairs.flatMap fun p => Printer.pair p.1 p.2)
    rw [List.flatMap_cons, readLines, hblanks]
    split
    · next hnil => exact absurd hnil hne
    · rw [hline]
      simp [hmore]

end Reader

namespace Document

theorem add_pair {d : Document} {key : String} {v : Value} (h : d.current.lookup key = none) :
    d.add (.pair [key] v) = some { d with current := d.current ++ [(key, v)] } := by
  simp [add, Entries.addAt?, Entries.change, Entries.add?, h]

theorem ofLines_pairs {entries : Entries} (h : (entries.map Prod.fst).Nodup) :
    ofLines (entries.map fun p => .pair [p.1] p.2) = some entries := by
  suffices hfold : ∀ front : Entries, ((front ++ entries).map Prod.fst).Nodup →
      (entries.map fun p => Line.pair [p.1] p.2).foldlM add { initial with current := front } =
        some { initial with current := front ++ entries } by
    have hall := hfold [] h
    rw [List.nil_append] at hall
    rw [ofLines]
    exact congrArg (Option.bind · close) hall
  clear h
  induction entries with
  | nil => simp
  | cons p entries ih =>
    intro front hkeys
    have hnew : front.lookup p.1 = none := by
      rw [List.map_append, List.map_cons, List.nodup_middle, List.nodup_cons] at hkeys
      refine List.lookup_eq_none_iff.mpr fun r hr => bne_iff_ne.mpr ?_
      intro heq
      exact hkeys.1 (List.mem_append_left _ (heq ▸ List.mem_map_of_mem hr))
    rw [List.map_cons, List.foldlM_cons, add_pair hnew]
    have hmore := ih (front ++ [p]) (by simpa using hkeys)
    rw [List.append_assoc] at hmore
    exact hmore

end Document

/-- A table with bare and distinct keys is read back from its text. -/
theorem parse_print {pairs : List (String × Scalar)}
    (hpairs : ∀ p ∈ pairs, Reader.Bare p.1 ∧ p.2.value.Signed)
    (hkeys : (pairs.map Prod.fst).Nodup) :
    parse (print pairs) = some (pairs.map fun p => (p.1, p.2.value)) := by
  have htext : (print pairs).toList = pairs.flatMap fun p => Printer.pair p.1 p.2 :=
    String.toList_ofList
  have hmark : (print pairs).toList.head? ≠ some '\uFEFF' := by
    rw [htext]
    cases pairs with
    | nil => simp
    | cons p pairs =>
      obtain ⟨c, line, hbegins, hc⟩ := (hpairs p List.mem_cons_self).1.begins_line p.2
        (pairs.flatMap fun p => Printer.pair p.1 p.2)
      have hne : c ≠ '\uFEFF' := ne_of_kind hc (by decide)
      rw [List.flatMap_cons, hbegins, List.head?_cons]
      exact fun h => hne (Option.some.inj h)
  have hlength : pairs.length < (print pairs).toList.length + 1 := by
    rw [htext, List.length_flatMap, Nat.lt_succ_iff,
      ← List.length_map fun p : String × Scalar => (Printer.pair p.1 p.2).length]
    refine List.length_le_sum_of_one_le _ fun n hn => ?_
    obtain ⟨p, -, rfl⟩ := List.mem_map.mp hn
    simp only [Printer.pair, List.length_append, List.length_cons]
    omega
  have hlines := Reader.readLines_pairs hpairs hlength
  have hbuilt : Document.ofLines (pairs.map fun p => .pair [p.1] p.2.value) =
      some (pairs.map fun p => (p.1, p.2.value)) := by
    have hentries : ((pairs.map fun p => (p.1, p.2.value)).map Prod.fst).Nodup := by
      rw [List.map_map]
      exact hkeys
    have h := Document.ofLines_pairs hentries
    rw [List.map_map] at h
    exact h
  simp only [parse, if_neg hmark]
  rw [htext] at hlines ⊢
  rw [hlines]
  exact hbuilt

end FirmwareHost.Toml
