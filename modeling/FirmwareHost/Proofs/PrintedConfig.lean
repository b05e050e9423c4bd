import FirmwareHost.CommandLine.Run
import FirmwareHost.Proofs.PrintedTables
import FirmwareHost.Proofs.Utf8Reading

/-! The configuration that options and a file make is one that can be written, and its text is a
file that makes it again. -/

namespace FirmwareHost

namespace Config

variable {c c' : Config} {v : Toml.Value} {key path text : String} {read files : FileReader}

/-- Whether the numbers of a configuration fit a file, where they are signed. -/
structure Writable (c : Config) : Prop where
  mailboxSize : c.mailboxSize.toNat < 0x8000000000000000
  waitTimeout : c.waitTimeout.toNat < 0x8000000000000000
  responseTimeout : ∀ t, c.responseTimeout = some t → t.toNat < 0x8000000000000000

theorem writable_defaults : defaults.Writable := ⟨by decide, by decide, fun _ h => nomatch h⟩

theorem lt_of_toWord {kind : SettingKind} {w : UInt64} (hv : v.Signed)
    (h : v.toWord kind = .ok w) : w.toNat < 0x8000000000000000 := by
  cases v with
  | integer n =>
    have hn : n < 0x8000000000000000 := hv.2
    simp only [Toml.Value.toWord] at h
    split at h
    · cases h
    · obtain rfl := Except.ok.inj h
      rw [UInt64.toNat_ofNat']
      omega
  | _ => cases h

theorem map_eq_ok {ε α β : Type} {x : Except ε α} {f : α → β} {b : β} (h : x.map f = .ok b) :
    ∃ a, x = .ok a ∧ f a = b := by
  cases x with
  | error e => cases h
  | ok a => exact ⟨a, rfl, Except.ok.inj h⟩

theorem bind_eq_ok {ε α β : Type} {x : Except ε α} {f : α → Except ε β} {b : β}
    (h : x >>= f = .ok b) : ∃ a, x = .ok a ∧ f a = .ok b := by
  cases x with
  | error e => cases h
  | ok a => exact ⟨a, rfl, h⟩

theorem Writable.set (h : c.Writable) (hv : v.Signed) (hc : c.set key v = .ok c') :
    c'.Writable := by
  unfold Config.set at hc
  split at hc
  case h_5 =>
    obtain ⟨w, hw, rfl⟩ := map_eq_ok hc
    exact ⟨lt_of_toWord hv hw, h.2, h.3⟩
  case h_6 =>
    obtain ⟨w, hw, rfl⟩ := map_eq_ok hc
    exact ⟨h.1, lt_of_toWord hv hw, h.3⟩
  case h_7 =>
    obtain ⟨w, hw, rfl⟩ := map_eq_ok hc
    refine ⟨h.1, h.2, fun t ht => ?_⟩
    obtain rfl := Option.some.inj ht
    exact lt_of_toWord hv hw
  case h_9 => cases hc
  all_goals
    obtain ⟨w, -, rfl⟩ := map_eq_ok hc
    exact ⟨h.1, h.2, h.3⟩

theorem Writable.sets {entries : Toml.Entries} (h : c.Writable) (hentries : entries.Signed)
    (hc : entries.foldlM (fun c (key, v) => c.set key v) c = .ok c') : c'.Writable := by
  induction entries generalizing c with
  | nil =>
    obtain rfl := Except.ok.inj hc
    exact h
  | cons p entries ih =>
    rw [List.foldlM_cons] at hc
    obtain ⟨next, hset, hc⟩ := bind_eq_ok hc
    have hnext := h.set (hentries p List.mem_cons_self) hset
    exact ih hnext (fun r hr => hentries r (List.mem_cons_of_mem p hr)) hc

theorem writable_of_parse (h : parse text = .ok c) : c.Writable := by
  unfold parse at h
  split at h
  · cases h
  · next entries hentries =>
    split at h
    · cases h
    · next c' hc =>
      split at h
      · cases h
      · obtain rfl := Except.ok.inj h
        exact writable_defaults.sets (Toml.signed_of_parse hentries) hc

theorem writable_of_load (h : load read path = .ok c) : c.Writable := by
  unfold load at h
  split at h
  · cases h
  · split at h
    · exact writable_of_parse h
    · cases h

/-- A configuration with what the options override. -/
def overridden (o : Options) (base : Config) : Config :=
  { base with
    bus := if o.session then .session else base.bus
    logLevel := o.logLevel.getD base.logLevel }

theorem resolve_eq_ok {o : Options} (h : o.resolve read = .ok c) :
    ∃ base, (base = defaults ∨ ∃ path, load read path = .ok base) ∧ c = overridden o base ∧
      c.validate = .ok () := by
  have hfold (base : Config) : { base with
      bus := if o.session then .session else base.bus
      logLevel := o.logLevel.getD base.logLevel } = overridden o base := rfl
  cases hpath : o.config with
  | none =>
    simp only [Options.resolve, hpath, pure_bind, hfold] at h
    split at h
    · next hvalid =>
      obtain rfl := Except.ok.inj h
      exact ⟨defaults, .inl rfl, rfl, hvalid⟩
    · cases h
  | some path =>
    cases hload : load read path with
    | error e =>
      simp only [Options.resolve, hpath, hload] at h
      cases h
    | ok base =>
      simp only [Options.resolve, hpath, hload, pure_bind, hfold] at h
      split at h
      · next hvalid =>
        obtain rfl := Except.ok.inj h
        exact ⟨base, .inr ⟨path, hload⟩, rfl, hvalid⟩
      · cases h

/-- Neither of the options that override a setting is about a number. -/
theorem writable_of_resolve {o : Options} (h : o.resolve read = .ok c) : c.Writable := by
  obtain ⟨base, hbase, rfl, -⟩ := resolve_eq_ok h
  have hwritable : base.Writable := by
    rcases hbase with rfl | ⟨path, hload⟩
    · exact writable_defaults
    · exact writable_of_load hload
  exact ⟨hwritable.1, hwritable.2, hwritable.3⟩

/-- The settings that are written, in the order of the keys. -/
def pairs (c : Config) : List (String × Toml.Scalar) :=
  [("bus", .string c.bus.name),
    ("service_name", .string c.serviceName),
    ("object_path", .string c.objectPath),
    ("interface", .string c.interface),
    ("mailbox_size", .integer c.mailboxSize.toNat),
    ("wait_timeout_ms", .integer c.waitTimeout.toNat)] ++
    (c.responseTimeout.toList.map fun t => ("response_timeout_ms", .integer t.toNat)) ++
    [("log_level", .string c.logLevel)]

theorem toPairs_eq (h : c.Writable) : c.toPairs = .ok c.pairs := by
  have hmailbox : scalar? c.mailboxSize = .ok (.integer c.mailboxSize.toNat) := if_pos h.1
  have hwait : scalar? c.waitTimeout = .ok (.integer c.waitTimeout.toNat) := if_pos h.2
  cases hresponse : c.responseTimeout with
  | none =>
    simp only [toPairs, hmailbox, hwait, hresponse, pairs]
    rfl
  | some t =>
    have ht : scalar? t = .ok (.integer t.toNat) := if_pos (h.3 t hresponse)
    simp only [toPairs, hmailbox, hwait, hresponse, pairs, ht]
    rfl

theorem print_eq (h : c.Writable) : c.print = .ok (Toml.print c.pairs) := by
  rw [print, toPairs_eq h]

theorem keys_pairs (c : Config) : (c.pairs.map Prod.fst).Sublist keys := by
  cases hresponse : c.responseTimeout with
  | none =>
    have hkeys : c.pairs.map Prod.fst = keys.erase "response_timeout_ms" := by
      simp only [pairs, hresponse]
      rfl
    rw [hkeys]
    exact List.erase_sublist
  | some t =>
    have hkeys : c.pairs.map Prod.fst = keys := by
      simp only [pairs, hresponse]
      rfl
    rw [hkeys]

theorem signed_word {w : UInt64} (h : w.toNat < 0x8000000000000000) :
    (Toml.Value.integer w.toNat).Signed := by
  constructor <;> omega

theorem Writable.signed (h : c.Writable) : ∀ p ∈ c.pairs, p.2.value.Signed := by
  intro p hp
  simp only [pairs, List.mem_append, List.mem_cons, List.mem_map, Option.mem_toList,
    List.not_mem_nil, or_false] at hp
  obtain ((rfl | rfl | rfl | rfl | rfl | rfl) | ⟨t, ht, rfl⟩) | rfl := hp
  · trivial
  · trivial
  · trivial
  · trivial
  · exact signed_word h.1
  · exact signed_word h.2
  · exact signed_word (h.3 t ht)
  · trivial

theorem parse_pairs (h : c.Writable) :
    Toml.parse (Toml.print c.pairs) = some (c.pairs.map fun p => (p.1, p.2.value)) := by
  have hbare : ∀ key ∈ keys, Toml.Reader.Bare key := by
    simp [keys, Toml.Reader.Bare, Toml.Reader.isBare]
  have hkeys := c.keys_pairs
  have hdistinct : keys.Nodup := by simp [keys]
  refine Toml.parse_print (fun p hp => ⟨?_, h.signed p hp⟩) (hkeys.nodup hdistinct)
  exact hbare p.1 (hkeys.subset (List.mem_map_of_mem hp))

theorem toBus_name (bus : BusKind) : Toml.Value.toBus (.string bus.name) = .ok bus := by
  cases bus <;> rfl

theorem toWord_toNat (kind : SettingKind) (w : UInt64) :
    Toml.Value.toWord kind (.integer w.toNat) = .ok w := by
  have hsign : ¬ (w.toNat : Int) < 0 := by omega
  simp only [Toml.Value.toWord, if_neg hsign, Int.toNat_natCast, UInt64.ofNat_toNat]

theorem ofEntries_pairs (c : Config) :
    ofEntries (c.pairs.map fun p => (p.1, p.2.value)) = .ok c := by
  obtain ⟨bus, serviceName, objectPath, interface, mailboxSize, waitTimeout, responseTimeout,
    logLevel⟩ := c
  cases responseTimeout <;>
  · simp only [ofEntries, pairs, Option.toList, List.map_cons, List.map_nil, List.cons_append,
      List.nil_append, List.foldlM_cons, List.foldlM_nil, set, Toml.Scalar.value, toBus_name,
      toWord_toNat, Toml.Value.toText, Except.map]
    rfl

theorem parse_printed (h : c.Writable) (hvalid : c.validate = .ok ()) :
    parse (Toml.print c.pairs) = .ok c := by
  simp only [parse, parse_pairs h, ofEntries_pairs, hvalid]

theorem load_printed (h : c.Writable) (hvalid : c.validate = .ok ())
    (hfile : files path = .ok (Utf8.encode (Toml.print c.pairs))) : load files path = .ok c := by
  have hdecode := Utf8.decode_encode (Toml.print c.pairs)
  have hencoded : Utf8.isValid (Utf8.encode (Toml.print c.pairs)) := by
    simp [Utf8.isValid, hdecode]
  simp only [load, hfile, if_pos hencoded, hdecode, parse_printed h hvalid]

/-- With the configuration in a file and nothing to override it, the file decides. -/
theorem resolve_printed {o : Options} (hload : load files path = .ok c)
    (hvalid : c.validate = .ok ()) (hpath : o.config = some path) (hbus : o.session = false)
    (hlevel : o.logLevel = none) : o.resolve files = .ok c := by
  have hsame : { c with bus := if o.session then .session else c.bus
                        logLevel := o.logLevel.getD c.logLevel : Config } = c := by
    rw [hbus, hlevel]
    rfl
  simp only [Options.resolve, hpath, hload, pure_bind, hsame, hvalid]
  rfl

end Config

namespace Options

variable {path : String}

theorem assign_config (hpath : path ≠ "") :
    assign .config path empty = .ok { empty with config := some path } := by
  simp [assign, empty, hpath]

theorem readFrom_attached (hpath : path ≠ "") (rest : List String) :
    readFrom (("--config=" ++ path) :: rest) ⟨empty, none⟩ =
      readFrom rest ⟨{ empty with config := some path }, none⟩ := by
  have hsettle : (Progress.mk empty none).settle = pure empty := rfl
  have hlong : (Progress.mk empty none).long "config" (some path) =
      .ok ⟨{ empty with config := some path }, none⟩ := by
    calc (Progress.mk empty none).long "config" (some path)
      _ = (Progress.mk empty none).attach .config path := rfl
      _ = .ok ⟨{ empty with config := some path }, none⟩ := by
        rw [Progress.attach, hsettle, pure_bind, assign_config hpath]
        rfl
  have hchars : ("--config=" ++ path).toList =
      '-' :: '-' :: 'c' :: 'o' :: 'n' :: 'f' :: 'i' :: 'g' :: '=' :: path.toList := by
    simp
  rw [readFrom, hchars]
  simp [hlong, Except.bind]

theorem read_behind (hpath : path ≠ "") (hdash : path.toList.head? ≠ some '-') :
    read ["--config", path] = .ok { empty with config := some path } := by
  have hpending : readFrom ["--config", path] ⟨empty, none⟩ =
      readFrom [path] ⟨empty, some (.config, none)⟩ := rfl
  have hword : (Progress.mk empty (some (.config, none))).word path =
      .ok ⟨empty, some (.config, some path)⟩ := rfl
  have hsettle : (Progress.mk empty (some (.config, some path))).settle =
      .ok { empty with config := some path } := assign_config hpath
  rw [read, hpending, readFrom]
  have hfirst {cs : List Char} (h : path.toList = '-' :: cs) : False := hdash (by rw [h]; rfl)
  split
  · next h => exact (hfirst h).elim
  · next h => exact (hfirst h).elim
  · next h => exact (hfirst h).elim
  · rw [hword]
    exact hsettle

end Options

/-- The configuration that is printed is found again where nothing but its text is given: a file
with that text makes it, and is printed as the same text. -/
theorem Config.printed_again {read : FileReader} {o : Options} {c : Config}
    (h : o.resolve read = .ok c) :
    ∃ text, c.print = .ok text ∧ ∀ (files : FileReader) (path : String),
      files path = .ok (Utf8.encode text) →
      (∀ o' : Options, o'.config = some path → o'.session = false → o'.logLevel = none →
        o'.resolve files = .ok c) ∧
      (path ≠ "" → ∃ o', Options.read ["--config=" ++ path] = .ok o' ∧
        o'.resolve files = .ok c) ∧
      (path ≠ "" → path.toList.head? ≠ some '-' → ∃ o',
        Options.read ["--config", path] = .ok o' ∧ o'.resolve files = .ok c) ∧
      (path ≠ "" → run files ["--config=" ++ path, "--print-config"] =
        ⟨0, text, LogFilter.warnings c.logLevel⟩) := by
  have hwritable := writable_of_resolve h
  obtain ⟨-, -, -, hvalid⟩ := resolve_eq_ok h
  have hprint := print_eq hwritable
  refine ⟨_, hprint, fun files path hfile => ?_⟩
  have hload := load_printed hwritable hvalid hfile
  have hresolve (o' : Options) (hpath : o'.config = some path) (hbus : o'.session = false)
      (hlevel : o'.logLevel = none) : o'.resolve files = .ok c :=
    resolve_printed hload hvalid hpath hbus hlevel
  refine ⟨hresolve, fun hpath => ?_, fun hpath hdash => ?_, fun hpath => ?_⟩
  · exact ⟨_, Options.readFrom_attached hpath [], hresolve _ rfl rfl rfl⟩
  · exact ⟨_, Options.read_behind hpath hdash, hresolve _ rfl rfl rfl⟩
  · have hread : Options.read ["--config=" ++ path, "--print-config"] =
        .ok { Options.empty with config := some path, printConfig := true } :=
      Options.readFrom_attached hpath ["--print-config"]
    have hagain := hresolve { Options.empty with config := some path, printConfig := true }
      rfl rfl rfl
    simp only [run, hread, runOptions, hagain, hprint, if_true, Exit.precede, List.append_nil]

theorem Config.printed_again_sample :
    Options.read ["-c", "prm.toml", "--session", "--log-level", "warn\n\"'\u00e9"] =
      .ok ⟨some "prm.toml", true, some "warn\n\"'\u00e9", false⟩ ∧
    ∃ c text, Options.resolve (fun _ => .ok (Utf8.encode
        "service_name = 'a\\b\"'\nmailbox_size = 8192\nresponse_timeout_ms = 250\n"))
        ⟨some "prm.toml", true, some "warn\n\"'\u00e9", false⟩ = .ok c ∧
      c.serviceName = "a\\b\"" ∧ c.logLevel = "warn\n\"'\u00e9" ∧ c.print = .ok text ∧
      Options.resolve (fun _ => .ok (Utf8.encode text)) ⟨some "again.toml", false, none, false⟩ =
        .ok c := by
  have h : Options.resolve (fun _ => .ok (Utf8.encode
      "service_name = 'a\\b\"'\nmailbox_size = 8192\nresponse_timeout_ms = 250\n"))
      ⟨some "prm.toml", true, some "warn\n\"'\u00e9", false⟩ =
      .ok { defaults with
        bus := .session
        serviceName := "a\\b\""
        mailboxSize := 8192
        responseTimeout := some 250
        logLevel := "warn\n\"'\u00e9" } := by rfl
  obtain ⟨text, hprint, hagain⟩ := printed_again h
  have hsame := (hagain (fun _ => .ok (Utf8.encode text)) "again.toml" rfl).1
  exact ⟨rfl, _, text, h, rfl, rfl, hprint, hsame _ rfl rfl rfl⟩

end FirmwareHost
