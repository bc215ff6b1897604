/-
  ScriptDebugger/Proofs/Command/Acceptance.lean
  =============================================
  **Which texts are read as a command.**

  An object gives a command if the name of the command and each member that belongs to it
  stand in it exactly once; what else it holds does not matter (`Command.GivenBy`).  A value
  is read as a command exactly if it is such an object or the array of the name and the
  values (`Command.ofJson?_eq_some_iff`), and a text exactly if it is a text of such a value
  (`Command.parse?_eq_some_iff`).  The other members only have to be readable: not nested too
  deeply, and with no number beyond double precision (`Json.Number.inRange_of_value_le`).
-/
import ScriptDebugger.Command.Codec
import ScriptDebugger.Proofs.Json.Acceptance

namespace ScriptDebugger

namespace Json

variable {v : Json}

theorem string?_eq_some_iff {s : String} : v.string? = some s ↔ v = .string s := by
  cases v <;> simp [string?]

theorem bool?_eq_some_iff {b : Bool} : v.bool? = some b ↔ v = .bool b := by
  cases v <;> simp [bool?]

theorem natural?_eq_some_iff {n : Nat} : v.natural? = some n ↔ v = .ofNat n := by
  cases v with
  | number x =>
    obtain ⟨negative, significand, scale⟩ := x
    cases negative <;> cases scale <;> simp [natural?, Number.natural?, ofNat, Number.ofNat]
  | _ => simp [natural?, ofNat]

/-! ### Members by name -/

theorem named_append (name : String) (ms ns : List (String × Json)) :
    named name (ms ++ ns) = named name ms ++ named name ns := by
  rw [named, List.filter_append, List.map_append]
  rfl

theorem named_eq_nil {name : String} {ms : List (String × Json)} (h : ∀ m ∈ ms, m.1 ≠ name) :
    named name ms = [] := by
  rw [named, List.filter_eq_nil_iff.mpr fun m hm => by simp [h m hm]]
  rfl

theorem named_perm (name : String) {ms ns : List (String × Json)} (h : ms.Perm ns) :
    (named name ms).Perm (named name ns) :=
  (h.filter _).map _

end Json

namespace Command

variable {c : Command} {members : List (String × Json)}

/-! ### Values of members -/

/-- A line is an unsigned integer literal of at most 32 bits. -/
theorem line?_eq_some_iff {v : Json} {line : UInt32} :
    line? v = some line ↔ v = .ofNat line.toNat := by
  unfold line?
  constructor
  · intro h
    split at h
    · rename_i n hn
      obtain ⟨hlt, hline⟩ := Option.ite_none_right_eq_some.mp h
      obtain rfl := Option.some.inj hline
      rw [UInt32.toNat_ofNat_of_lt' hlt]
      exact Json.natural?_eq_some_iff.mp hn
    · cases h
  · intro h
    rw [Json.natural?_eq_some_iff.mpr h]
    exact (if_pos line.toNat_lt).trans (congrArg some UInt32.ofNat_toNat)

theorem single?_eq_some_iff {name : String} {v : Json} :
    single? members name = some v ↔ Json.named name members = [v] := by
  unfold single?
  split <;> simp_all

/-! ### The document of a command -/

/-- An object holds the name of a command and the members that belong to it, each of them
    exactly once. -/
structure GivenBy (c : Command) (members : List (String × Json)) : Prop where
  name_eq : Json.named tag members = [.string c.name]
  field_eq : ∀ f ∈ c.fields, Json.named f.1 members = [f.2]

/-- The values that are documents of a command. -/
inductive IsDocument (c : Command) : Json → Prop
  | object {members : List (String × Json)} (h : c.GivenBy members) : IsDocument c (.object members)
  | array : IsDocument c (.array (.string c.name :: c.fields.map Prod.snd))

/-- A command is built from its name and the values of its members. -/
theorem build?_fields (c : Command) : build? c.name (c.fields.map Prod.snd) = some c := by
  cases c with
  | setBreakpoint line enabled =>
    have hline : line? (.ofNat line.toNat) = some line := line?_eq_some_iff.mpr rfl
    simp [build?, name, fields, hline, Json.bool?]
  | _ => rfl

theorem build?_eq_some_iff {name : String} {values : List Json} :
    build? name values = some c ↔ name = c.name ∧ values = c.fields.map Prod.snd := by
  constructor
  · intro h
    unfold build? at h
    obtain ⟨hname, hbuild⟩ | ⟨-, h⟩ := ite_eq_iff.mp h
    · split at hbuild
      · simp only [Option.bind_eq_bind, Option.bind_eq_some_iff] at hbuild
        obtain ⟨line, hline, enabled, henabled, hc⟩ := hbuild
        cases hc
        rw [line?_eq_some_iff.mp hline, Json.bool?_eq_some_iff.mp henabled]
        exact ⟨hname, rfl⟩
      · cases hbuild
    obtain ⟨hname, hbuild⟩ | ⟨-, h⟩ := ite_eq_iff.mp h
    · split at hbuild
      · simp only [Option.bind_eq_bind, Option.bind_eq_some_iff] at hbuild
        obtain ⟨muted, hmuted, hc⟩ := hbuild
        cases hc
        rw [Json.bool?_eq_some_iff.mp hmuted]
        exact ⟨hname, rfl⟩
      · cases hbuild
    obtain ⟨-, hbuild⟩ | ⟨hvalues, h⟩ := ite_eq_iff.mp h
    · cases hbuild
    rw [not_not.mp hvalues]
    -- the commands without members
    iterate 7
      obtain ⟨hname, hbuild⟩ | ⟨-, h⟩ := ite_eq_iff.mp h
      · cases hbuild
        exact ⟨hname, rfl⟩
    cases h
  · rintro ⟨rfl, rfl⟩
    exact build?_fields c

theorem fieldNames?_name (c : Command) : fieldNames? c.name = some (c.fields.map Prod.fst) := by
  cases c <;> rfl

theorem mapM_eq_some_map_snd {α β : Type} {read : α → Option β} {fs : List (α × β)} :
    (fs.map Prod.fst).mapM read = some (fs.map Prod.snd) ↔ ∀ f ∈ fs, read f.1 = some f.2 := by
  induction fs with
  | nil => simp
  | cons f fs ih =>
    rw [List.map_cons, List.mapM_cons, List.forall_mem_cons, ← ih]
    constructor
    · intro h
      obtain ⟨b, hb, h⟩ := Option.bind_eq_some_iff.mp h
      obtain ⟨bs, hbs, hcons⟩ := Option.bind_eq_some_iff.mp h
      obtain ⟨rfl, rfl⟩ := List.cons.inj (Option.some.inj hcons)
      exact ⟨hb, hbs⟩
    · rintro ⟨hf, hfs⟩
      rw [hf, hfs]
      rfl

/-- **The members of an object give the command that is read from it.** -/
theorem ofJson?_object : ofJson? (.object members) = some c ↔ c.GivenBy members := by
  simp only [ofJson?, Option.bind_eq_bind, Option.bind_eq_some_iff]
  constructor
  · rintro ⟨v, hv, name, hname, names, hnames, values, hvalues, hbuild⟩
    obtain ⟨rfl, rfl⟩ := build?_eq_some_iff.mp hbuild
    obtain rfl := Json.string?_eq_some_iff.mp hname
    obtain rfl := Option.some.inj ((fieldNames?_name c).symm.trans hnames)
    exact ⟨single?_eq_some_iff.mp hv, fun f hf =>
      single?_eq_some_iff.mp (mapM_eq_some_map_snd.mp hvalues f hf)⟩
  · rintro ⟨hname, hfields⟩
    exact ⟨.string c.name, single?_eq_some_iff.mpr hname, c.name, rfl, c.fields.map Prod.fst,
      fieldNames?_name c, c.fields.map Prod.snd,
      mapM_eq_some_map_snd.mpr fun f hf => single?_eq_some_iff.mpr (hfields f hf), build?_fields c⟩

theorem ofJson?_eq_some_iff {v : Json} : ofJson? v = some c ↔ c.IsDocument v := by
  constructor
  · intro h
    unfold ofJson? at h
    split at h
    · exact .object (ofJson?_object.mp h)
    · obtain ⟨rfl, rfl⟩ := build?_eq_some_iff.mp h
      exact .array
    · cases h
  · intro h
    cases h with
    | object hgiven => exact ofJson?_object.mpr hgiven
    | array => exact build?_fields c

/-- **Exactly the texts of the documents of a command are read as the command.** -/
theorem parse?_eq_some_iff {s : String} :
    parse? s = some c ↔
      ∃ v : Json, v.SpelledAs s ∧ v.Readable ∧ v.depth ≤ Json.nestingLimit ∧ c.IsDocument v := by
  simp only [parse?, Option.bind_eq_some_iff, Json.parse?_eq_some_iff, ofJson?_eq_some_iff,
    and_assoc]

/-- A text of an object is read as the command that its members give. -/
theorem parse?_object {s : String} (h : (Json.object members).SpelledAs s) :
    parse? s = some c ↔ (Json.object members).Readable ∧
      (Json.object members).depth ≤ Json.nestingLimit ∧ c.GivenBy members := by
  simp only [parse?, Option.bind_eq_some_iff, h.parse?_eq_some_iff]
  constructor
  · rintro ⟨v, ⟨rfl, hreadable, hdepth⟩, hc⟩
    exact ⟨hreadable, hdepth, ofJson?_object.mp hc⟩
  · rintro ⟨hreadable, hdepth, hc⟩
    exact ⟨_, ⟨rfl, hreadable, hdepth⟩, ofJson?_object.mpr hc⟩

/-! ### The members of a command among others -/

/-- The members that belong to a command have different names, and none is the tag. -/
theorem named_fields {f : String × Json} (hf : f ∈ c.fields) :
    f.1 ≠ tag ∧ Json.named f.1 c.fields = [f.2] := by
  cases c with
  | setBreakpoint line enabled =>
    obtain rfl | rfl := List.mem_pair.mp hf <;> exact ⟨by simp [tag], rfl⟩
  | toggleMute muted =>
    obtain rfl := List.mem_singleton.mp hf
    exact ⟨by simp [tag], rfl⟩
  | _ => cases hf

theorem named_tag_fields (c : Command) : Json.named tag c.fields = [] :=
  Json.named_eq_nil fun _ hf => (named_fields hf).1

/-- The order of the members does not matter, nor do members with other names. -/
theorem givenBy_of_perm {others : List (String × Json)}
    (hmembers : members.Perm ((tag, .string c.name) :: c.fields ++ others))
    (hothers : ∀ m ∈ others, m.1 ≠ tag ∧ m.1 ∉ c.fields.map Prod.fst) : c.GivenBy members := by
  have hsplit (name : String) : (Json.named name members).Perm
      (Json.named name [(tag, .string c.name)] ++ Json.named name c.fields ++
        Json.named name others) := by
    rw [← Json.named_append, ← Json.named_append]
    exact Json.named_perm name hmembers
  refine ⟨List.perm_singleton.mp ?_, fun f hf => List.perm_singleton.mp ?_⟩
  · have htag := hsplit tag
    rwa [named_tag_fields, Json.named_eq_nil fun m hm => (hothers m hm).1] at htag
  · obtain ⟨hne, hnamed⟩ := named_fields hf
    have hfront : Json.named f.1 [(tag, .string c.name)] = [] :=
      Json.named_eq_nil (List.forall_mem_singleton.mpr hne.symm)
    have hback : Json.named f.1 others = [] :=
      Json.named_eq_nil fun m hm heq => (hothers m hm).2 (heq ▸ List.mem_map_of_mem hf)
    have hfield := hsplit f.1
    rwa [hfront, hnamed, hback] at hfield

/-- What a command writes of itself can be read. -/
theorem readable_fields {f : String × Json} (hf : f ∈ c.fields) : f.2.Readable ∧ f.2.depth = 0 := by
  cases c with
  | setBreakpoint line enabled =>
    obtain rfl | rfl := List.mem_pair.mp hf
    · exact ⟨Json.readable_ofNat (line.toNat_lt.trans (by decide)), rfl⟩
    · exact ⟨Json.readable_bool enabled, rfl⟩
  | toggleMute muted =>
    obtain rfl := List.mem_singleton.mp hf
    exact ⟨Json.readable_bool muted, rfl⟩
  | _ => cases hf

theorem parse?_of_perm {others : List (String × Json)} {s : String}
    (hmembers : members.Perm ((tag, .string c.name) :: c.fields ++ others))
    (hothers : ∀ m ∈ others, m.1 ≠ tag ∧ m.1 ∉ c.fields.map Prod.fst)
    (hreadable : ∀ m ∈ others, m.2.Readable ∧ m.2.depth < Json.nestingLimit)
    (hs : (Json.object members).SpelledAs s) : parse? s = some c := by
  have hall : ∀ m ∈ members, m.2.Readable ∧ m.2.depth ≤ 126 := by
    intro m hm
    rcases List.mem_append.mp (hmembers.mem_iff.mp hm) with hm | hm
    · rcases List.mem_cons.mp hm with rfl | hm
      · exact ⟨Json.readable_string c.name, Nat.zero_le _⟩
      · obtain ⟨hvalue, hdepth⟩ := readable_fields hm
        exact ⟨hvalue, hdepth.trans_le (Nat.zero_le _)⟩
    · obtain ⟨hvalue, hdepth⟩ := hreadable m hm
      exact ⟨hvalue, Nat.le_of_lt_succ hdepth⟩
  exact (parse?_object hs).mpr ⟨Json.readable_object fun m hm => (hall m hm).1,
    Json.depth_object_le fun m hm => (hall m hm).2, givenBy_of_perm hmembers hothers⟩

theorem parse?_text (c : Command) : parse? c.text = some c := by
  have hmembers : ((tag, .string c.name) :: c.fields).Perm
      ((tag, .string c.name) :: c.fields ++ []) := by rw [List.append_nil]
  exact parse?_of_perm hmembers (List.forall_mem_nil _) (List.forall_mem_nil _)
    (Json.spelledAs_compact c.toJson)

/-! ### Texts that are refused -/

theorem parse?_eq_none_of_forall {s : String} (hs : (Json.object members).SpelledAs s)
    (h : ∀ d : Command, ¬ d.GivenBy members) : parse? s = none :=
  Option.eq_none_iff_forall_ne_some.mpr fun d hd => h d ((parse?_object hs).mp hd).2.2

theorem GivenBy.name_eq_of_mem {d : Command} (h : d.GivenBy members)
    (hc : .string c.name ∈ Json.named tag members) : c.name = d.name := by
  rw [h.name_eq, List.mem_singleton] at hc
  exact Json.string.inj hc

/-- Commands of the same name have the same members. -/
theorem map_fst_fields {d : Command} (h : c.name = d.name) :
    c.fields.map Prod.fst = d.fields.map Prod.fst := by
  have hnames := fieldNames?_name c
  rw [h, fieldNames?_name] at hnames
  exact (Option.some.inj hnames).symm

theorem exists_of_name (h : c.name = "setBreakpoint") :
    ∃ line enabled, c = .setBreakpoint line enabled := by
  cases c with
  | setBreakpoint line enabled => exact ⟨line, enabled, rfl⟩
  | _ => exact absurd h (by simp [name])

/-- **The members of a document decide which command it is.**  A command is read from its own
    text and from every text of an object in which its name and the members that belong to it
    stand once each: in any order, among any others that can be read, with any escapes and
    blanks.  No other texts are read, but for those of an array of the name and the values; in
    particular an object is refused in which the name or a member of the command of this name
    is missing or repeated, or in which the line is anything but digits for a number of 32
    bits. -/
theorem members_decide_the_command :
    -- a command is read from its own text
    (∀ c : Command, parse? c.text = some c) ∧
    -- and from every text of an object that holds its members once each, among any others
    (∀ (c : Command) (others members : List (String × Json)) (s : String),
      members.Perm ((tag, .string c.name) :: c.fields ++ others) →
      (∀ m ∈ others, m.1 ≠ tag ∧ m.1 ∉ c.fields.map Prod.fst) →
      (∀ m ∈ others, m.2.Readable ∧ m.2.depth < Json.nestingLimit) →
      (Json.object members).SpelledAs s → parse? s = some c) ∧
    -- no other texts are read, but for those of the array of the name and the values
    (∀ (s : String) (c : Command), parse? s = some c ↔
      ∃ v : Json, v.SpelledAs s ∧ v.Readable ∧ v.depth ≤ Json.nestingLimit ∧ c.IsDocument v) ∧
    -- a command that was read is read again from its own text
    (∀ (s : String) (c : Command), parse? s = some c →
      parse? c.text = some c ∧ (parse? c.text).map text = some c.text) ∧
    (∀ (members : List (String × Json)) (s : String), (Json.object members).SpelledAs s →
      -- the name has to stand in an object once
      ((Json.named tag members).length ≠ 1 → parse? s = none) ∧
      -- and so has each member that belongs to the command of this name
      (∀ c : Command, .string c.name ∈ Json.named tag members →
        ∀ f ∈ c.fields, (Json.named f.1 members).length ≠ 1 → parse? s = none) ∧
      -- and a line has to be a natural number of 32 bits
      (.string "setBreakpoint" ∈ Json.named tag members → ∀ v ∈ Json.named "line" members,
        (∀ n < Source.lineBound, v ≠ .ofNat n) → parse? s = none)) ∧
    -- which is written with digits alone
    ∀ (n : Nat) (cs : List Char),
      (Json.Number.ofNat n).SpelledAs cs ↔ Json.IsWhole cs ∧ Json.digitsValue cs = n := by
  refine ⟨parse?_text, fun c others members s hmembers hothers hreadable hs =>
    parse?_of_perm hmembers hothers hreadable hs, fun s c => parse?_eq_some_iff, fun s c _ =>
    ⟨parse?_text c, by rw [parse?_text]; rfl⟩, fun members s hs => ⟨?_, ?_, ?_⟩,
    fun n cs => Json.Number.spelledAs_ofNat_iff⟩
  · intro hcount
    refine parse?_eq_none_of_forall hs fun d hd => hcount ?_
    rw [hd.name_eq]
    rfl
  · intro c hc f hf hcount
    refine parse?_eq_none_of_forall hs fun d hd => hcount ?_
    have hname : f.1 ∈ d.fields.map Prod.fst :=
      map_fst_fields (hd.name_eq_of_mem hc) ▸ List.mem_map_of_mem hf
    obtain ⟨g, hg, hgf⟩ := List.mem_map.mp hname
    rw [← hgf, hd.field_eq g hg]
    rfl
  · intro hc v hv hline
    refine parse?_eq_none_of_forall hs fun d hd => ?_
    have hname : Command.name (.setBreakpoint 0 false) = d.name := hd.name_eq_of_mem hc
    obtain ⟨line, enabled, rfl⟩ := exists_of_name hname.symm
    have hvalue := hd.field_eq ("line", .ofNat line.toNat) List.mem_cons_self
    rw [hvalue, List.mem_singleton] at hv
    exact hline line.toNat line.toNat_lt hv

/-- The members stand in reverse order behind one that belongs to no command, with blanks
    around them, an escape in a name and a digit more in the other number than needed. -/
theorem setBreakpoint_among_others :
    parse? "\t\x7b\"x\" : [1.50e3,\x7b\x7d],\n\"en\\u0061bled\":true,\"line\":4294967295,\"command\":\"setBreakpoint\" \x7d" =
      some (.setBreakpoint 4294967295 true) := by
  let other : String × Json := ("x", .array [.number ⟨false, 150, some 1⟩, .object []])
  let members : List (String × Json) := [other, ("enabled", .bool true),
    ("line", .ofNat 4294967295), ("command", .string "setBreakpoint")]
  have hmembers : members.Perm ((tag, .string "setBreakpoint") ::
      fields (.setBreakpoint 4294967295 true) ++ [other]) := List.reverse_perm members.reverse
  have hother : other.1 ≠ tag ∧ other.1 ∉ ["line", "enabled"] := by decide
  have hreadable : ∀ t ∈ other.2.tokens, t.Readable := by decide +kernel
  have hdepth : other.2.depth < Json.nestingLimit := by decide +kernel
  exact members_decide_the_command.2.1 (.setBreakpoint 4294967295 true) [other] members _ hmembers
    (List.forall_mem_singleton.mpr hother) (List.forall_mem_singleton.mpr ⟨hreadable, hdepth⟩)
    (Json.spelledAs_of_tokens? (by decide +kernel)).1

end Command

end ScriptDebugger
