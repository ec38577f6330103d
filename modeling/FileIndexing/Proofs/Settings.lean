import FileIndexing.Config
import FileIndexing.Proofs.Reading
import FileIndexing.Proofs.Spelling
import Mathlib.Data.List.Nodup
import Mathlib.Data.List.Perm.Basic

/-!
# Loading settings

Which texts settings are loaded from.  A text describes settings (`Config.Describes`) if it is an
object that says what their members say.  The order of the members and their spelling do not matter,
standard ones may be missing, and there may be others that mean nothing here.

Two halves meet at `Describes`: the text that is written for settings describes them
(`describes_toJson`), and a text that describes settings is read as them (`readText_of_describes`).
For the second, `Config.draft` says what has been read once members of some names have been, so that
one member is one step (`readMember_draft`), and the members in any order are a run of such steps
(`foldlM_readMember`).
-/

namespace FileIndexing.Config

open Json

/-! ## What a text says about settings -/

/-- The members of settings in JSON. -/
def members (c : Config) : List (String × Value) :=
  [("test_mode", .bool c.testMode),
    ("trace_index_updates", .bool c.traceUpdates),
    ("traced_indices", .array (c.tracedIndices.map .string)),
    ("worker_threads", (c.workerThreads.map fun n => Value.natural n.toNat).getD .null),
    ("rebuild_history_limit", .natural c.historyLimit.toNat)]

/-- The names of the members of settings. -/
def memberNames : List String := form.fields.map (·.name)

theorem map_fst_members (c : Config) : c.members.map Prod.fst = memberNames := rfl

theorem nodup_memberNames : memberNames.Nodup := by decide

/-- A text describes settings if it is an object with their members in any order, from which
members that are standard may be left out, and to which members of other names may be added. -/
def Describes (c : Config) (text : String) : Prop :=
  ∃ (members kept added : List (StringLiteral × Tree)) (said : List (String × Value)),
    Spells (.padded (.object members none)) text.toList ∧
    members.Perm (kept ++ added) ∧
    (Tree.object kept none).Says (.object said) ∧
    said.Sublist c.members ∧
    (∀ entry ∈ c.members, entry ∈ said ∨ entry ∈ standard.members) ∧
    ∀ m ∈ added, ∃ name, m.1.Says name ∧ name ∉ memberNames

theorem spelt_toJson (c : Config) : c.toJson.Spelt := by
  have hnames : (Value.array (c.tracedIndices.map .string)).Spelt := by
    refine spelt_array fun v hv => ?_
    obtain ⟨name, -, rfl⟩ := List.mem_map.1 hv
    exact spelt_string name
  have hworkers : ((c.workerThreads.map fun n => Value.natural n.toNat).getD .null).Spelt := by
    cases c.workerThreads with
    | none => exact spelt_null
    | some n => exact spelt_natural n.toNat
  refine spelt_object fun m hm => ?_
  simp only [List.mem_cons, List.not_mem_nil, or_false] at hm
  obtain rfl | rfl | rfl | rfl | rfl := hm
  · exact spelt_bool c.testMode
  · exact spelt_bool c.traceUpdates
  · exact hnames
  · exact hworkers
  · exact spelt_natural c.historyLimit.toNat

theorem exists_mem_of_forall₂ {α β : Type} {R : α → β → Prop} {as : List α} {bs : List β}
    (h : List.Forall₂ R as bs) {a : α} (ha : a ∈ as) : ∃ b ∈ bs, R a b := by
  induction h with
  | nil => cases ha
  | @cons _ b _ bs hab _ ih =>
    cases ha with
    | head => exact ⟨b, List.mem_cons_self, hab⟩
    | tail _ ha =>
      obtain ⟨b', hmem, hb'⟩ := ih ha
      exact ⟨b', List.mem_cons_of_mem b hmem, hb'⟩

/-- The text that is written for an object describes settings if the members of the object are, in
some order, members of the settings and others, and only standard ones are missing. -/
theorem describes_object {c : Config} {entries said added : List (String × Value)}
    (hspelt : (Value.object entries).Spelt) (hperm : entries.Perm (said ++ added))
    (hsub : said.Sublist c.members)
    (hleft : ∀ entry ∈ c.members, entry ∈ said ∨ entry ∈ standard.members)
    (hother : ∀ entry ∈ added, entry.1 ∉ memberNames) :
    c.Describes (Value.object entries).text := by
  obtain ⟨tree, hspells, hsays⟩ := hspelt
  generalize hobject : Value.object entries = v at hsays
  obtain _ | _ | _ | _ | _ | @⟨members, _, hnames, hvalues⟩ := hsays <;> cases hobject
  have hpairs := Tree.says_object_iff.1 (.object hnames hvalues)
  -- The members stand in the order of the entries, which is not that of the settings.
  obtain ⟨sorted, hsorted, hmembers⟩ := List.perm_comp_forall₂ hperm.symm hpairs.flip
  refine ⟨members, sorted.take said.length, sorted.drop said.length, said, ?_, ?_, ?_, hsub, hleft,
    fun m hm => ?_⟩
  · rw [Value.text, String.toList_ofList]
    exact hspells.unpadded
  · rw [List.take_append_drop]
    exact hmembers.symm
  · exact Tree.says_object_iff.2 (List.forall₂_take_append sorted said added hsorted.flip)
  · obtain ⟨entry, hentry, hname, -⟩ :=
      exists_mem_of_forall₂ (List.forall₂_drop_append sorted said added hsorted.flip) hm
    exact ⟨entry.1, hname, hother entry hentry⟩

/-- The written settings describe themselves. -/
theorem describes_toJson (c : Config) : c.Describes c.toJson.text :=
  describes_object c.spelt_toJson (by rw [List.append_nil]; rfl) (List.Sublist.refl _)
    (fun _ => .inl) fun _ h => absurd h List.not_mem_nil

/-! ## What has been read -/

/-- What has been read of settings after members of the given names. -/
def draft (c : Config) (names : List String) : Draft where
  testMode := if "test_mode" ∈ names then some c.testMode else none
  traceUpdates := if "trace_index_updates" ∈ names then some c.traceUpdates else none
  tracedIndices := if "traced_indices" ∈ names then some c.tracedIndices else none
  workerThreads := if "worker_threads" ∈ names then some c.workerThreads else none
  historyLimit := if "rebuild_history_limit" ∈ names then some c.historyLimit else none

theorem draft_nil (c : Config) : c.draft [] = form.blank := rfl

theorem draft_cons_of_notMem {c : Config} {name : String} (h : name ∉ memberNames)
    (names : List String) : c.draft (name :: names) = c.draft names := by
  simp only [memberNames, form, List.map_cons, List.map_nil, List.mem_cons, List.not_mem_nil,
    not_or, or_false] at h
  simp [draft, Ne.symm h.1, Ne.symm h.2.1, Ne.symm h.2.2.1, Ne.symm h.2.2.2.1, Ne.symm h.2.2.2.2]

theorem find?_fields_of_notMem {name : String} (h : name ∉ memberNames) :
    form.fields.find? (·.name == name) = none := by
  rw [List.find?_eq_none]
  intro field hfield heq
  exact h (eq_of_beq heq ▸ List.mem_map_of_mem hfield)

/-- Reading a member of the settings. -/
theorem readMember_draft {c : Config} {m : StringLiteral × Tree} {name : String} {value : Value}
    {names : List String} (hmem : (name, value) ∈ c.members) (hname : m.1.Says name)
    (hvalue : m.2.Says value) (hnew : name ∉ names) :
    form.readMember (c.draft names) m = .ok (c.draft (name :: names)) := by
  simp only [members, List.mem_cons, List.not_mem_nil, or_false, Prod.mk.injEq] at hmem
  obtain ⟨rfl, rfl⟩ | ⟨rfl, rfl⟩ | ⟨rfl, rfl⟩ | ⟨rfl, rfl⟩ | ⟨rfl, rfl⟩ := hmem
  · rw [Form.readMember_field hname rfl (by simp [draft, hnew])]
    simp [hvalue.asBool, draft, bind, Except.bind]
  · rw [Form.readMember_field hname rfl (by simp [draft, hnew])]
    simp [hvalue.asBool, draft, bind, Except.bind]
  · rw [Form.readMember_field hname rfl (by simp [draft, hnew])]
    simp [hvalue.asList fun _ _ => Tree.Says.asString, draft, bind, Except.bind]
  · rw [Form.readMember_field hname rfl (by simp [draft, hnew])]
    simp [hvalue.asOption (fun _ _ => Tree.Says.asUInt64) fun _ => nofun, draft, bind, Except.bind]
  · rw [Form.readMember_field hname rfl (by simp [draft, hnew])]
    simp [hvalue.asUInt64, draft, bind, Except.bind]

/-- A member of the settings, by its name, or one of another name. -/
def Fits (c : Config) (m : StringLiteral × Tree) (name : String) : Prop :=
  m.1.Says name ∧ ((∃ value, (name, value) ∈ c.members ∧ m.2.Says value) ∨
    name ∉ memberNames ∧ m.2.shapeFault? = none)

theorem fits_of_object {c : Config} {kept : List (StringLiteral × Tree)}
    {said : List (String × Value)} (hobject : (Tree.object kept none).Says (.object said))
    (hsub : said ⊆ c.members) : List.Forall₂ c.Fits kept (said.map Prod.fst) := by
  rw [List.forall₂_map_right_iff]
  obtain ⟨hlength, hpair⟩ := List.forall₂_iff_zip.1 (Tree.says_object_iff.1 hobject)
  refine List.forall₂_iff_zip.2 ⟨hlength, fun {m entry} hzip => ?_⟩
  obtain ⟨hname, hvalue⟩ := hpair hzip
  exact ⟨hname, .inl ⟨entry.2, hsub (List.of_mem_zip hzip).2, hvalue⟩⟩

/-- Reading members, of which none is read twice. -/
theorem foldlM_readMember {c : Config} {members : List (StringLiteral × Tree)}
    {names : List String} (h : List.Forall₂ c.Fits members names) (before : List String)
    (honce : ∀ name ∈ memberNames, (names ++ before).count name ≤ 1) :
    members.foldlM form.readMember (c.draft before) = .ok (c.draft (names.reverse ++ before)) := by
  induction h generalizing before with
  | nil => rfl
  | @cons m name members names hm _ ih =>
    have hstep : form.readMember (c.draft before) m = .ok (c.draft (name :: before)) := by
      obtain ⟨hname, ⟨value, hmem, hvalue⟩ | ⟨hother, hshape⟩⟩ := hm
      · refine readMember_draft hmem hname hvalue fun hbefore => ?_
        have hcount := honce name (c.map_fst_members ▸ List.mem_map_of_mem hmem)
        have hpos := List.count_pos_iff.2 hbefore
        rw [List.cons_append, List.count_cons_self, List.count_append] at hcount
        omega
      · rw [draft_cons_of_notMem hother]
        exact Form.readMember_other hname (find?_fields_of_notMem hother) rfl hshape
    have hrest := ih (name :: before) fun other hother =>
      (List.perm_middle.count_eq other).trans_le (honce other hother)
    rw [List.foldlM_cons, hstep, List.reverse_cons, List.append_assoc]
    exact hrest

theorem getD_ite {α : Type} {p : Prop} [Decidable p] {value standard : α}
    (h : p ∨ value = standard) : (if p then some value else none).getD standard = value := by
  by_cases hp : p
  · rw [if_pos hp, Option.getD_some]
  · rw [if_neg hp, Option.getD_none, h.resolve_left hp]

theorem natural_injective : Function.Injective Value.natural := by
  intro m n h
  have hdigits := congrArg (digitsValue ∘ String.toList) (Value.number.inj h)
  simpa only [Function.comp_apply, digitsValue_toString] using hdigits

/-- Settings are complete when what has not been read is standard. -/
theorem complete_draft {c : Config} {names : List String}
    (h : ∀ entry ∈ c.members, entry.1 ∈ names ∨ entry ∈ standard.members) :
    (c.draft names).complete = c := by
  have hcases : ("test_mode" ∈ names ∨ c.testMode = standard.testMode) ∧
      ("trace_index_updates" ∈ names ∨ c.traceUpdates = standard.traceUpdates) ∧
      ("traced_indices" ∈ names ∨ c.tracedIndices = standard.tracedIndices) ∧
      ("worker_threads" ∈ names ∨
        (c.workerThreads.map fun n => Value.natural n.toNat).getD .null = .null) ∧
      ("rebuild_history_limit" ∈ names ∨
        Value.natural c.historyLimit.toNat = .natural standard.historyLimit.toNat) := by
    simpa [members, standard] using h
  obtain ⟨htest, htrace, hnames, hworkers, hlimit⟩ := hcases
  have hworkers' := hworkers.imp_right fun heq : _ = Value.null =>
    show c.workerThreads = standard.workerThreads by
      cases hthreads : c.workerThreads with
      | none => rfl
      | some n =>
        rw [hthreads] at heq
        cases heq
  have hlimit' := hlimit.imp_right fun heq => UInt64.toNat_inj.1 (natural_injective heq)
  rw [draft, Draft.complete, getD_ite htest, getD_ite htrace, getD_ite hnames, getD_ite hworkers',
    getD_ite hlimit']

/-- Members of the settings and others name no member of the settings twice. -/
theorem count_le_one {c : Config} {said : List (String × Value)} {others : List String}
    (hsub : said.Sublist c.members) (hother : ∀ name ∈ others, name ∉ memberNames) {name : String}
    (hname : name ∈ memberNames) : (said.map Prod.fst ++ others).count name ≤ 1 := by
  have hsaid : (said.map Prod.fst).count name ≤ 1 :=
    List.nodup_iff_count_le_one.1 ((hsub.map Prod.fst).nodup nodup_memberNames) name
  have hothers : others.count name = 0 :=
    List.count_eq_zero_of_not_mem fun hmem => hother name hmem hname
  rwa [List.count_append, hothers]

/-- A text that describes settings is read as them. -/
theorem readText_of_describes {c : Config} {text : String} (h : c.Describes text) :
    readText form.read text = .ok c := by
  obtain ⟨members, kept, added, said, hspells, hperm, hobject, hsub, hleft, hadded⟩ := h
  choose! otherName hotherSays hother using hadded
  have hshape : ∀ m ∈ members, m.2.shapeFault? = none := by
    have hnone := hspells.shapely
    simp only [Phrase.Shapely, Tree.shapeFault?, Option.or_none] at hnone
    exact fun m => shapeFault?_of_mem hnone
  have hfitsAdded : List.Forall₂ c.Fits added (added.map otherName) := by
    rw [List.forall₂_map_right_iff, List.forall₂_same]
    exact fun m hm => ⟨hotherSays m hm, .inr ⟨hother m hm,
      hshape m (hperm.mem_iff.2 (List.mem_append_right kept hm))⟩⟩
  obtain ⟨names, hfits, hnames⟩ := List.perm_comp_forall₂ hperm
    (List.rel_append (fits_of_object hobject hsub.subset) hfitsAdded)
  have honce : ∀ name ∈ memberNames, (names ++ []).count name ≤ 1 := fun name hname => by
    rw [List.append_nil, hnames.count_eq]
    exact count_le_one hsub (List.forall_mem_map.2 hother) hname
  have hcomplete : (c.draft (names.reverse ++ [])).complete = c := by
    refine complete_draft fun entry hentry => (hleft entry hentry).imp_left fun hsaid => ?_
    rw [List.append_nil, List.mem_reverse, hnames.mem_iff]
    exact List.mem_append_left _ (List.mem_map_of_mem hsaid)
  rw [readText_of_spells form.read hspells, Form.read, ← draft_nil c,
    foldlM_readMember hfits [] honce]
  simp only [raise, form]
  exact congrArg Except.ok hcomplete

/-! ## Loading -/

theorem validate_of_ofJson {text : String} {c : Config} (h : ofJson text = .ok c) :
    c.validate = .ok () := by
  rw [ofJson] at h
  cases hread : (readText form.read text).mapError Error.json with
  | error e =>
    rw [hread] at h
    cases h
  | ok d =>
    rw [hread] at h
    cases hvalid : d.validate with
    | error e =>
      simp [bind, Except.bind, hvalid] at h
    | ok _ =>
      simp [bind, Except.bind, hvalid] at h
      exact h ▸ hvalid

/-- Valid settings are loaded from the text that is written for them, and from every other text that
describes them.  Whatever the text, settings that are loaded are valid. -/
theorem ofJson_roundTrip :
    (∀ c : Config, c.validate = .ok () → ofJson c.toJson.text = .ok c ∧
      ∀ text, c.Describes text → ofJson text = .ok c) ∧
    ∀ text c, ofJson text = .ok c → c.validate = .ok () := by
  have hload {c : Config} (hvalid : c.validate = .ok ()) {text : String}
      (h : c.Describes text) : ofJson text = .ok c := by
    rw [ofJson, readText_of_describes h]
    simp [Except.mapError, bind, Except.bind, hvalid]
  exact ⟨fun c hvalid => ⟨hload hvalid c.describes_toJson, fun text h => hload hvalid h⟩,
    fun text c => validate_of_ofJson⟩

/-- Settings of which two are standard. -/
def tracingSettings : Config := ⟨false, true, ["π\n"], some 4, 64⟩

/-- What a text says of them that leaves the standard ones out. -/
def tracingMembers : List (String × Value) :=
  [("trace_index_updates", .bool true), ("traced_indices", .array [.string "π\n"]),
    ("worker_threads", .natural 4)]

/-- A member of another name. -/
def strangeMember : String × Value := ("π", .array [.null])

/-- They are loaded from their own text and from one with their members backwards, less the standard
ones, and a member of another name before them. -/
theorem ofJson_roundTrip_tracing :
    ofJson tracingSettings.toJson.text = .ok tracingSettings ∧ tracingSettings.validate = .ok () ∧
    ofJson (Value.object (tracingMembers ++ [strangeMember]).reverse).text =
      .ok tracingSettings := by
  have hspelt : ∀ entry ∈ tracingMembers ++ [strangeMember], entry.2.Spelt := by
    have hname : (Value.array [.string "π\n"]).Spelt :=
      spelt_array (List.forall_mem_singleton.2 (spelt_string _))
    have hstrange : (Value.array [.null]).Spelt :=
      spelt_array (List.forall_mem_singleton.2 spelt_null)
    simp only [tracingMembers, strangeMember, List.cons_append, List.nil_append,
      List.forall_mem_cons]
    exact ⟨spelt_bool true, hname, spelt_natural 4, hstrange, List.forall_mem_nil _⟩
  have hsub : tracingMembers.Sublist tracingSettings.members :=
    .cons _ (.cons_cons _ (.cons_cons _ (.cons_cons _ (.cons _ .slnil))))
  have hdescribes := describes_object
    (spelt_object fun entry hentry => hspelt entry (List.mem_reverse.1 hentry))
    (List.reverse_perm (tracingMembers ++ [strangeMember])) hsub
    (by simp [members, tracingSettings, standard, tracingMembers])
    (by simp [strangeMember, memberNames, form])
  obtain ⟨hself, hothers⟩ := ofJson_roundTrip.1 tracingSettings rfl
  exact ⟨hself, ofJson_roundTrip.2 _ _ hself, hothers _ hdescribes⟩

end FileIndexing.Config
