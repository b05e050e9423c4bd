import FirmwareHost.Toml.Reader

/-! The integers of a document are signed ones of 64 bits. Those at its top stay so through every
line, since a line adds a value that was read, or a table. -/

namespace FirmwareHost.Toml

variable {v : Value} {cs rest : List Char}

/-- Whether a value, if it is an integer, is a signed one of 64 bits. What it holds is left open. -/
def Value.Signed : Value → Prop
  | .integer n => -0x8000000000000000 ≤ n ∧ n < 0x8000000000000000
  | _ => True

theorem signed_of_some {v' : Value} (h : some (v', cs) = some (v, rest)) (hv : v'.Signed) :
    v.Signed := by
  obtain ⟨rfl, -⟩ := Prod.mk.inj (Option.some.inj h)
  exact hv

theorem signed_of_map {α : Type} {x : Option α} {f : α → Value × List Char}
    (h : x.map f = some (v, rest)) (hf : ∀ a, (f a).1.Signed) : v.Signed := by
  obtain ⟨a, -, hv⟩ := Option.map_eq_some_iff.mp h
  have hfirst := hf a
  rw [hv] at hfirst
  exact hfirst

namespace Number

theorem signed_of_integer? {n : Int} (h : integer? n = some v) : v.Signed := by
  unfold integer? at h
  split at h
  · next hn =>
    obtain rfl := Option.some.inj h
    exact hn
  · cases h

theorem signed_of_float? {negative : Bool} {ds : List Nat} {e : Int}
    (h : float? negative ds e = some v) : v.Signed := by
  unfold float? at h
  split at h
  · cases h
  · obtain rfl := Option.some.inj h
    trivial

theorem signed_of_readInteger {base : Nat} (h : readInteger base cs = some (v, rest)) :
    v.Signed := by
  simp only [readInteger, Option.bind_eq_bind, Option.bind_eq_some_iff] at h
  obtain ⟨_, _, n, hn, hv⟩ := h
  exact signed_of_some hv (signed_of_integer? hn)

theorem signed_of_readDecimal {negative : Bool} (h : readDecimal negative cs = some (v, rest)) :
    v.Signed := by
  simp only [readDecimal, Option.bind_eq_bind, Option.bind_eq_some_iff] at h
  obtain ⟨_, _, h⟩ := h
  split at h
  · simp only [Option.bind_eq_some_iff] at h
    obtain ⟨_, _, _, _, x, hx, hv⟩ := h
    exact signed_of_some hv (signed_of_float? hx)
  · simp only [Option.bind_eq_some_iff] at h
    obtain ⟨n, hn, hv⟩ := h
    exact signed_of_some hv (signed_of_integer? hn)

theorem signed_of_read (h : read cs = some (v, rest)) : v.Signed := by
  unfold read at h
  split at h
  · exact signed_of_readInteger h
  · exact signed_of_readInteger h
  · exact signed_of_readInteger h
  · split at h
    · exact signed_of_some h trivial
    · exact signed_of_some h trivial
    · exact signed_of_readDecimal h

end Number

namespace Reader

theorem signed_of_readString (h : readString cs = some (v, rest)) : v.Signed := by
  unfold readString at h
  split at h
  · exact signed_of_map h fun _ => trivial
  · exact signed_of_map h fun _ => trivial

theorem signed_of_readScalar (h : readScalar cs = some (v, rest)) : v.Signed := by
  unfold readScalar at h
  split at h
  · exact signed_of_readString h
  · exact signed_of_readString h
  · exact signed_of_some h trivial
  · exact signed_of_some h trivial
  · split at h
    · exact signed_of_some h trivial
    · exact Number.signed_of_read h

theorem signed_of_readInline {value : List Char → Reading Value}
    (h : readInline value cs = some (v, rest)) : v.Signed := by
  unfold readInline at h
  split at h
  · exact signed_of_some h trivial
  · simp only [Option.bind_eq_bind, Option.bind_eq_some_iff] at h
    obtain ⟨_, _, entries, _, hv⟩ := h
    exact signed_of_some hv trivial

theorem signed_of_readValue {depth : Nat} (h : readValue depth cs = some (v, rest)) :
    v.Signed := by
  unfold readValue at h
  split at h
  · split at h
    · cases h
    · exact signed_of_map h fun _ => trivial
  · split at h
    · cases h
    · exact signed_of_readInline h
  · exact signed_of_readScalar h

end Reader

/-- Whether the value that a line adds, if it adds one, is a signed integer of 64 bits or none. -/
def Line.Signed : Line → Prop
  | .pair _ v => v.Signed
  | _ => True

namespace Reader

variable {line : Line} {lines : List Line} {fuel : Nat}

theorem signed_of_readLine (h : readLine cs = some (line, rest)) : line.Signed := by
  cases line with
  | blank | header _ | arrayHeader _ => trivial
  | pair path v =>
    unfold readLine at h
    split at h
    case h_6 =>
      simp only [Option.bind_eq_bind, Option.bind_eq_some_iff, readPair] at h
      obtain ⟨_, ⟨_, _, _, _, ⟨w, _⟩, hw, hpair⟩, _, _, hline⟩ := h
      obtain rfl := Option.some.inj hpair
      obtain ⟨⟨-, rfl⟩, -⟩ : (_ ∧ w = v) ∧ _ := by simpa using hline
      exact signed_of_readValue hw
    all_goals simp [Option.bind_eq_some_iff] at h

theorem signed_of_readLines (h : readLines fuel cs = some lines) : ∀ line ∈ lines, line.Signed := by
  induction fuel generalizing cs lines with
  | zero => simp [readLines] at h
  | succ fuel ih =>
    unfold readLines at h
    split at h
    · obtain rfl := Option.some.inj h
      simp
    · simp only [Option.bind_eq_bind, Option.bind_eq_some_iff] at h
      obtain ⟨⟨line, rest⟩, hline, more, hmore, hlines⟩ := h
      obtain rfl := Option.some.inj hlines
      intro l hl
      rcases List.mem_cons.mp hl with rfl | hl
      · exact signed_of_readLine hline
      · exact ih hmore l hl

end Reader

def Entries.Signed (t : Entries) : Prop := ∀ p ∈ t, p.2.Signed

namespace Entries

variable {t t' : Entries} {key : String} {path : List String}

theorem signed_nil : Entries.Signed [] := fun _ hp => absurd hp List.not_mem_nil

theorem Signed.append_one (h : t.Signed) (hv : v.Signed) : Entries.Signed (t ++ [(key, v)]) := by
  intro p hp
  rcases List.mem_append.mp hp with hp | hp
  · exact h p hp
  · obtain rfl := List.mem_singleton.mp hp
    exact hv

theorem Signed.replace (h : t.Signed) (hv : v.Signed) : (t.replace key v).Signed := by
  intro p hp
  obtain ⟨⟨k, w⟩, hr, rfl⟩ := List.mem_map.mp hp
  by_cases hk : k = key
  · simpa [hk] using hv
  · simpa [hk] using h _ hr

theorem Signed.erase (h : t.Signed) (key : String) : (t.erase key).Signed := fun p hp =>
  h p (List.mem_filter.mp hp).1

theorem Signed.add? (h : t.Signed) (ht : t.add? key v = some t') (hv : v.Signed) : t'.Signed := by
  unfold Entries.add? at ht
  split at ht
  · obtain rfl := Option.some.inj ht
    exact h.append_one hv
  · cases ht

/-- A change that is not made at the top only puts tables there. -/
theorem Signed.change {α : Type} {dotted : Bool} {f : Origin → Entries → Option (α × Entries)}
    {origin : Origin} {a : α} (h : t.Signed)
    (hf : ∀ origin a t', path = [] → f origin t = some (a, t') → t'.Signed)
    (ht : change dotted f path origin t = some (a, t')) : t'.Signed := by
  cases path with
  | nil => exact hf origin a t' rfl ht
  | cons key path =>
    unfold Entries.change at ht
    split at ht
    · obtain ⟨_, _, hput⟩ := Option.map_eq_some_iff.mp ht
      obtain ⟨-, rfl⟩ := Prod.mk.inj hput
      exact h.append_one trivial
    · split at ht
      · obtain ⟨_, _, hput⟩ := Option.map_eq_some_iff.mp ht
        obtain ⟨-, rfl⟩ := Prod.mk.inj hput
        exact h.replace trivial
      · cases ht
    · split at ht
      · cases ht
      · obtain ⟨_, _, hput⟩ := Option.map_eq_some_iff.mp ht
        obtain ⟨-, rfl⟩ := Prod.mk.inj hput
        exact h.replace trivial
    · cases ht

theorem Signed.addAt? (h : t.Signed) (hv : v.Signed) (ht : t.addAt? path v = some t') :
    t'.Signed := by
  unfold Entries.addAt? at ht
  split at ht
  · cases ht
  · obtain ⟨⟨a, t'⟩, hput, rfl⟩ := Option.map_eq_some_iff.mp ht
    refine h.change (fun origin a t' _ hadd => ?_) hput
    split at hadd
    · obtain ⟨_, hnew, hpair⟩ := Option.map_eq_some_iff.mp hadd
      obtain ⟨-, rfl⟩ := Prod.mk.inj hpair
      exact h.add? hnew hv
    · cases hadd

end Entries

/-- What holds of a document after every line: while no header has come, lines go to its top. -/
def Document.Signed (d : Document) : Prop := d.root.Signed ∧ (d.path = [] → d.current.Signed)

namespace Document

variable {d d' : Document} {t : Entries} {path : List String} {line : Line}

theorem Signed.close (h : d.Signed) (ht : d.close = some t) : t.Signed := by
  unfold Document.close at ht
  split at ht
  · next hlast =>
    obtain rfl := Option.some.inj ht
    exact h.2 (List.getLast?_eq_none_iff.mp hlast)
  · obtain ⟨⟨a, t'⟩, hput, rfl⟩ := Option.map_eq_some_iff.mp ht
    refine h.1.change (fun origin a t' _ hadd => ?_) hput
    split at hadd
    · split at hadd
      · obtain ⟨-, rfl⟩ := Prod.mk.inj (Option.some.inj hadd)
        exact h.1.replace trivial
      · cases hadd
    · obtain ⟨_, hnew, hpair⟩ := Option.map_eq_some_iff.mp hadd
      obtain ⟨-, rfl⟩ := Prod.mk.inj hpair
      exact h.1.add? hnew trivial

theorem Signed.openTable (h : d.Signed) (hd : d.openTable path = some d') : d'.Signed := by
  simp only [Document.openTable, Option.bind_eq_bind, Option.bind_eq_some_iff] at hd
  obtain ⟨root, hclose, key, hkey, ⟨current, root'⟩, hput, hd⟩ := hd
  obtain rfl := Option.some.inj hd
  have hroot := h.close hclose
  refine ⟨hroot.change (fun origin a t' _ hopen => ?_) hput, ?_⟩
  · split at hopen
    · obtain ⟨-, rfl⟩ := Prod.mk.inj (Option.some.inj hopen)
      exact hroot
    · obtain ⟨-, rfl⟩ := Prod.mk.inj (Option.some.inj hopen)
      exact hroot.erase key
    · cases hopen
  · rintro rfl
    cases hkey

theorem Signed.openRow (h : d.Signed) (hd : d.openRow path = some d') : d'.Signed := by
  simp only [Document.openRow, Option.bind_eq_bind, Option.bind_eq_some_iff] at hd
  obtain ⟨root, hclose, key, hkey, ⟨a, root'⟩, hput, hd⟩ := hd
  obtain rfl := Option.some.inj hd
  have hroot := h.close hclose
  refine ⟨hroot.change (fun origin a t' _ hopen => ?_) hput, fun _ => Entries.signed_nil⟩
  split at hopen
  · obtain ⟨-, rfl⟩ := Prod.mk.inj (Option.some.inj hopen)
    exact hroot.append_one trivial
  · obtain ⟨-, rfl⟩ := Prod.mk.inj (Option.some.inj hopen)
    exact hroot
  · cases hopen

theorem Signed.add (h : d.Signed) (hline : line.Signed) (hd : d.add line = some d') :
    d'.Signed := by
  cases line with
  | blank =>
    obtain rfl := Option.some.inj hd
    exact h
  | pair path v =>
    obtain ⟨current, hadd, rfl⟩ := Option.map_eq_some_iff.mp hd
    exact ⟨h.1, fun hpath => (h.2 hpath).addAt? hline hadd⟩
  | header path => exact h.openTable hd
  | arrayHeader path => exact h.openRow hd

theorem Signed.lines {lines : List Line} (h : d.Signed) (hlines : ∀ line ∈ lines, line.Signed)
    (hd : lines.foldlM Document.add d = some d') : d'.Signed := by
  induction lines generalizing d with
  | nil =>
    obtain rfl := Option.some.inj hd
    exact h
  | cons line lines ih =>
    rw [List.foldlM_cons] at hd
    obtain ⟨next, hnext, hd⟩ := Option.bind_eq_some_iff.mp hd
    have hstep := h.add (hlines line List.mem_cons_self) hnext
    exact ih hstep (fun l hl => hlines l (List.mem_cons_of_mem line hl)) hd

end Document

theorem signed_of_parse {text : String} {t : Entries} (h : parse text = some t) : t.Signed := by
  obtain ⟨lines, hlines, ht⟩ := Option.bind_eq_some_iff.mp h
  obtain ⟨d, hd, hclose⟩ := Option.bind_eq_some_iff.mp ht
  have hinitial : Document.initial.Signed := ⟨Entries.signed_nil, fun _ => Entries.signed_nil⟩
  exact (hinitial.lines (Reader.signed_of_readLines hlines) hd).close hclose

end FirmwareHost.Toml
