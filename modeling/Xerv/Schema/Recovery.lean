import Xerv.Schema.RegistryJson

/-!
# What survives a restart of the registry

Loading registers the stored schemas in any order. It recovers the answers where the maps
hold nothing but what the stored schemas say: every hash leads to the only schema that has
it, and every version is the version of some schema.
-/

namespace Xerv.Schema.VersionedSchemaRegistry
open Xerv.Lib

structure SameAnswers (r' r : VersionedSchemaRegistry) : Prop where
  get : ∀ name, r'.get name = r.get name
  getByHash : ∀ h, r'.getByHash h = r.getByHash h
  getVersions : ∀ s, r'.getVersions s = r.getVersions s
  getVersion : ∀ s v, r'.getVersion s v = r.getVersion s v
  getLatest : ∀ s, r'.getLatest s = r.getLatest s

/-- In whatever order it is stored, the loaded registry gives the answers of the original. -/
def RoundTrips {Text : Type} (codec : RegistryCodec Text) (r : VersionedSchemaRegistry) : Prop :=
  ∀ orders : r.Orders, ∃ r', (r.persist codec orders).bind (load codec) = .ok r' ∧ SameAnswers r' r

def recordedVersion (t : TypeInfo) : SchemaVersion := ⟨t.version.toUInt16, 0⟩

/-- The hashes and the histories say what the schemas say. -/
structure Recoverable (r : VersionedSchemaRegistry) : Prop where
  hashes : ∀ h name, r.byHash.get h = some name ↔ ∃ t, r.get name = some t ∧ t.hash = h
  versions : ∀ s, ∀ v ∈ r.getVersions s, ∃ name t, r.get name = some t ∧ t.shortName = s ∧ recordedVersion t = v

/-! ### A registry that is filled from a list -/

def reload (path : Option String) (ts : List TypeInfo) : VersionedSchemaRegistry := ts.foldl register (empty path)

theorem reload_concat (path : Option String) (ts : List TypeInfo) (t : TypeInfo) :
    reload path (ts ++ [t]) = (reload path ts).register t := Machine.foldl_concat _ _ _ _

theorem wellFormed_reload (path : Option String) (ts : List TypeInfo) : (reload path ts).WellFormed := by
  induction ts using List.reverseRecOn with
  | nil => exact wellFormed_empty path
  | append_singleton ts t ih =>
    rw [reload_concat]
    exact wellFormed_register ih t

theorem byHash_register (r : VersionedSchemaRegistry) (info : TypeInfo) (h : UInt64) :
    (r.register info).byHash.get h = if h = info.hash then some info.name else r.byHash.get h :=
  FiniteMap.get_insert _ _ _ _

theorem get_reload (path : Option String) {ts : List TypeInfo} (hnames : (ts.map TypeInfo.name).Nodup) (name : String)
    (t : TypeInfo) : (reload path ts).get name = some t ↔ t ∈ ts ∧ t.name = name := by
  induction ts using List.reverseRecOn with
  | nil => exact iff_of_false nofun nofun
  | append_singleton ts t' ih =>
    rw [List.map_append, List.nodup_append] at hnames
    rw [reload_concat, get_register, List.mem_append, List.mem_singleton]
    split
    · rename_i heq
      subst heq
      constructor
      · rintro ⟨⟩
        exact ⟨.inr rfl, rfl⟩
      · rintro ⟨ht | rfl, hname⟩
        · exact absurd hname (hnames.2.2 _ (List.mem_map_of_mem ht) _ List.mem_cons_self)
        · rfl
    · rename_i hne
      rw [ih hnames.1]
      refine and_congr_left fun hname => (or_iff_left ?_).symm
      rintro rfl
      exact hne hname.symm

theorem byHash_reload (path : Option String) (ts : List TypeInfo) (h : UInt64) (name : String)
    (hget : (reload path ts).byHash.get h = some name) : ∃ t ∈ ts, t.hash = h ∧ t.name = name := by
  induction ts using List.reverseRecOn with
  | nil => cases hget
  | append_singleton ts t ih =>
    rw [reload_concat, byHash_register] at hget
    split at hget
    · rename_i heq
      cases hget
      exact ⟨t, List.mem_append_right _ List.mem_cons_self, heq.symm, rfl⟩
    · obtain ⟨t', ht', hboth⟩ := ih hget
      exact ⟨t', List.mem_append_left _ ht', hboth⟩

theorem exists_byHash_reload (path : Option String) {ts : List TypeInfo} {t : TypeInfo} (ht : t ∈ ts) :
    ∃ name, (reload path ts).byHash.get t.hash = some name := by
  induction ts using List.reverseRecOn with
  | nil => cases ht
  | append_singleton ts t' ih =>
    rw [reload_concat, byHash_register]
    split
    · exact ⟨t'.name, rfl⟩
    · rename_i hne
      rcases List.mem_append.mp ht with ht | ht
      · exact ih ht
      · exact absurd (congrArg TypeInfo.hash (List.mem_singleton.mp ht)) hne

theorem mem_getVersions_reload (path : Option String) (ts : List TypeInfo) (s : String) (v : SchemaVersion) :
    v ∈ (reload path ts).getVersions s ↔ ∃ t ∈ ts, t.shortName = s ∧ recordedVersion t = v := by
  induction ts using List.reverseRecOn with
  | nil => exact iff_of_false nofun nofun
  | append_singleton ts t ih =>
    rw [reload_concat, mem_getVersions_register, ih]
    constructor
    · rintro (⟨t', ht', hboth⟩ | ⟨rfl, rfl⟩)
      · exact ⟨t', List.mem_append_left _ ht', hboth⟩
      · exact ⟨t, List.mem_append_right _ List.mem_cons_self, rfl, rfl⟩
    · rintro ⟨t', ht', hs, hv⟩
      rcases List.mem_append.mp ht' with ht' | ht'
      · exact .inl ⟨t', ht', hs, hv⟩
      · obtain rfl := List.mem_singleton.mp ht'
        exact .inr ⟨hs.symm, hv.symm⟩

/-! ### What is stored -/

variable {r : VersionedSchemaRegistry}

def Orders.stored (orders : r.Orders) : List TypeInfo := orders.schemas.map Prod.snd

theorem mem_stored (hr : r.WellFormed) (orders : r.Orders) (t : TypeInfo) :
    t ∈ orders.stored ↔ r.get t.name = some t := by
  unfold Orders.stored
  rw [List.mem_map]
  constructor
  · rintro ⟨⟨name, t'⟩, he, rfl⟩
    have hget : r.get name = some t' := (orders.schemasEnumerate.mem_iff _ _).mp he
    rw [hr.named name t' hget]
    exact hget
  · intro ht
    exact ⟨(t.name, t), (orders.schemasEnumerate.mem_iff _ _).mpr ht, rfl⟩

theorem stored_nodup (hr : r.WellFormed) (orders : r.Orders) : (orders.stored.map TypeInfo.name).Nodup := by
  have hnames : orders.stored.map TypeInfo.name = orders.schemas.map Prod.fst := by
    unfold Orders.stored
    rw [List.map_map]
    refine List.map_congr_left fun e he => ?_
    exact hr.named e.1 e.2 ((orders.schemasEnumerate.mem_iff _ _).mp he)
  rw [hnames]
  exact orders.schemasEnumerate.nodup

theorem get_reload_stored (hr : r.WellFormed) (orders : r.Orders) (path : Option String) (name : String) :
    (reload path orders.stored).get name = r.get name := by
  refine Option.ext fun t => ?_
  rw [get_reload path (stored_nodup hr orders), mem_stored hr]
  constructor
  · rintro ⟨ht, rfl⟩
    exact ht
  · intro ht
    have hname := hr.named name t ht
    exact ⟨hname ▸ ht, hname⟩

theorem sameAnswers_of {r' : VersionedSchemaRegistry} (hget : ∀ name, r'.get name = r.get name)
    (hhash : ∀ h, r'.getByHash h = r.getByHash h) (hversions : ∀ s, r'.getVersions s = r.getVersions s) :
    SameAnswers r' r := by
  have hversion (s : String) (v : SchemaVersion) : r'.getVersion s v = r.getVersion s v := hget _
  refine ⟨hget, hhash, hversions, hversion, fun s => ?_⟩
  rw [r'.getLatest_eq, r.getLatest_eq, hversions, funext (hversion s)]

theorem versions_ext (hr : r.WellFormed) {r' : VersionedSchemaRegistry} (hr' : r'.WellFormed) {s : String}
    (h : ∀ v, v ∈ r'.getVersions s ↔ v ∈ r.getVersions s) : r'.getVersions s = r.getVersions s := by
  have hirrefl : Std.Irrefl fun v w : SchemaVersion => v.cmp w = .lt := by
    refine ⟨fun v => ?_⟩
    rw [SchemaVersion.cmp_eq_lt]
    exact lt_irrefl _
  have hantisymm : Std.Antisymm fun v w : SchemaVersion => v.cmp w = .lt := by
    refine ⟨fun v w hvw hwv => ?_⟩
    rw [SchemaVersion.cmp_eq_lt] at hvw hwv
    exact absurd hvw hwv.asymm
  exact (hr'.sorted s).eq_of_mem_iff (hr.sorted s) h

theorem sameAnswers_reload (hr : r.WellFormed) (h : Recoverable r) (orders : r.Orders) (path : Option String) :
    SameAnswers (reload path orders.stored) r := by
  have hget := get_reload_stored hr orders path
  refine sameAnswers_of hget ?_ ?_
  · intro hash
    have hbyHash : (reload path orders.stored).byHash.get hash = r.byHash.get hash := by
      refine Option.ext fun name => ?_
      constructor
      · intro hname
        obtain ⟨t, ht, hthash, rfl⟩ := byHash_reload path _ hash name hname
        exact (h.hashes hash t.name).mpr ⟨t, (mem_stored hr orders t).mp ht, hthash⟩
      · intro hname
        obtain ⟨t, ht, rfl⟩ := (h.hashes hash name).mp hname
        have hstored := (mem_stored hr orders t).mpr (hr.named name t ht ▸ ht)
        obtain ⟨name', hname'⟩ := exists_byHash_reload path hstored
        obtain ⟨t', ht', hhash', rfl⟩ := byHash_reload path _ t.hash name' hname'
        have hsame := (h.hashes t.hash t'.name).mpr ⟨t', (mem_stored hr orders t').mp ht', hhash'⟩
        cases hname.symm.trans hsame
        exact hname'
    unfold getByHash
    rw [hbyHash]
    exact Option.bind_congr fun name _ => hget name
  · intro s
    refine versions_ext hr (wellFormed_reload path _) fun v => ?_
    rw [mem_getVersions_reload]
    constructor
    · rintro ⟨t, ht, rfl, rfl⟩
      exact hr.recorded t.name t ((mem_stored hr orders t).mp ht)
    · intro hv
      obtain ⟨name, t, ht, hs, hversion⟩ := h.versions s v hv
      exact ⟨t, (mem_stored hr orders t).mpr (hr.named name t ht ▸ ht), hs, hversion⟩

/-! ### When a restart recovers everything -/

theorem exists_orders (r : VersionedSchemaRegistry) : Nonempty r.Orders := by
  obtain ⟨schemas, hschemas⟩ := r.schemas.exists_enumerates
  obtain ⟨versions, hversions⟩ := r.versions.exists_enumerates
  exact ⟨⟨schemas, versions, hschemas, hversions⟩⟩

theorem exists_orders_last {name : String} {t : TypeInfo} (ht : r.get name = some t) :
    ∃ (orders : r.Orders) (ts : List TypeInfo), orders.stored = ts ++ [t] := by
  obtain ⟨orders⟩ := exists_orders r
  obtain ⟨before, later, hsplit⟩ := List.append_of_mem ((orders.schemasEnumerate.mem_iff name t).mpr ht)
  have hperm : orders.schemas.Perm (before ++ later ++ [(name, t)]) := by
    rw [hsplit, List.append_assoc]
    exact (List.perm_append_singleton _ _).symm.append_left before
  refine ⟨⟨_, orders.versions, orders.schemasEnumerate.perm hperm, orders.versionsEnumerate⟩,
    (before ++ later).map Prod.snd, ?_⟩
  unfold Orders.stored
  rw [List.map_append]
  rfl

theorem recoverable_of_sameAnswers (hr : r.WellFormed) {path : Option String}
    (h : ∀ orders : r.Orders, SameAnswers (reload path orders.stored) r) : Recoverable r := by
  refine ⟨fun hash name => ⟨?_, ?_⟩, ?_⟩
  · intro hname
    obtain ⟨t, ht⟩ := hr.hashed hash name hname
    obtain ⟨orders⟩ := exists_orders r
    have hfound : (reload path orders.stored).getByHash hash = some t := by
      rw [(h orders).getByHash]
      exact Option.bind_eq_some_iff.mpr ⟨name, hname, ht⟩
    obtain ⟨name', hname', ht'⟩ := Option.bind_eq_some_iff.mp hfound
    obtain ⟨t', hmem, hhash, rfl⟩ := byHash_reload path _ hash name' hname'
    have hsame := (get_reload path (stored_nodup hr orders) t'.name t').mpr ⟨hmem, rfl⟩
    cases ht'.symm.trans hsame
    exact ⟨t, ht, hhash⟩
  · rintro ⟨t, ht, rfl⟩
    obtain ⟨orders, ts, hlast⟩ := exists_orders_last ht
    have hfound := (h orders).getByHash t.hash
    rw [hlast, reload_concat, getByHash, byHash_register, if_pos rfl, Option.bind_some] at hfound
    change ((reload path ts).register t).get t.name = _ at hfound
    rw [get_register, if_pos rfl] at hfound
    obtain ⟨name', hname', ht'⟩ := Option.bind_eq_some_iff.mp hfound.symm
    rw [hname', (hr.named name' t ht').symm, hr.named name t ht]
  · intro s v hv
    obtain ⟨orders⟩ := exists_orders r
    rw [← (h orders).getVersions, mem_getVersions_reload] at hv
    obtain ⟨t, ht, hs, hversion⟩ := hv
    exact ⟨t.name, t, (mem_stored hr orders t).mp ht, hs, hversion⟩

/-- The stored registry is recovered in every order if and only if its maps say what its schemas say. -/
theorem roundTrips_iff_recoverable {Text : Type} {codec : RegistryCodec Text} (hcodec : codec.Decodes) {path : String}
    (hpath : r.persistencePath = some path) (hr : r.WellFormed) : RoundTrips codec r ↔ Recoverable r := by
  have hreload : RoundTrips codec r ↔ ∀ orders : r.Orders, SameAnswers (reload (some path) orders.stored) r := by
    refine forall_congr' fun orders => ?_
    rw [load_persist hcodec r hpath orders]
    constructor
    · rintro ⟨r', ⟨⟩, hsame⟩
      exact hsame
    · exact fun hsame => ⟨_, rfl, hsame⟩
  rw [hreload]
  exact ⟨recoverable_of_sameAnswers hr, fun h orders => sameAnswers_reload hr h orders _⟩

/-- The registration replaces at most the schema with its name, which has its hash, and no version
of a family is left without a schema. -/
structure ReplacesCleanly (r : VersionedSchemaRegistry) (info : TypeInfo) : Prop where
  hash : ∀ name t, r.get name = some t → (name = info.name ↔ t.hash = info.hash)
  family : ∀ t, r.get info.name = some t →
    (t.shortName = info.shortName ∧ recordedVersion t = recordedVersion info) ∨
      ∃ name t', name ≠ info.name ∧ r.get name = some t' ∧ t'.shortName = t.shortName ∧
        recordedVersion t' = recordedVersion t

theorem replacesCleanly_of_recoverable (hr : r.WellFormed) (h : Recoverable r) {info : TypeInfo}
    (h' : Recoverable (r.register info)) : ReplacesCleanly r info := by
  refine ⟨fun name t ht => ⟨?_, ?_⟩, ?_⟩
  · rintro rfl
    by_contra hne
    have hname := (h.hashes t.hash info.name).mpr ⟨t, ht, rfl⟩
    have hname' : (r.register info).byHash.get t.hash = some info.name := by
      rw [byHash_register, if_neg hne, hname]
    obtain ⟨t', ht', heq⟩ := (h'.hashes _ _).mp hname'
    rw [get_register, if_pos rfl] at ht'
    cases ht'
    exact hne heq.symm
  · intro heq
    by_contra hne
    have ht' : (r.register info).get name = some t := by rw [get_register, if_neg hne, ht]
    have hname := (h'.hashes info.hash name).mpr ⟨t, ht', heq⟩
    rw [byHash_register, if_pos rfl] at hname
    exact hne (Option.some.inj hname).symm
  · intro t ht
    have hv := (mem_getVersions_register r info t.shortName _).mpr (.inl (hr.recorded info.name t ht))
    obtain ⟨name, t', ht', hs, hversion⟩ := h'.versions _ _ hv
    rw [get_register] at ht'
    split at ht'
    · cases ht'
      exact .inl ⟨hs.symm, hversion.symm⟩
    · rename_i hne
      exact .inr ⟨name, t', hne, ht', hs, hversion⟩

theorem Recoverable.register (h : Recoverable r) {info : TypeInfo} (hclean : ReplacesCleanly r info) :
    Recoverable (r.register info) := by
  constructor
  · intro hash name
    rw [byHash_register, get_register]
    by_cases hname : name = info.name
    · subst hname
      rw [if_pos rfl]
      split
      · rename_i heq
        exact iff_of_true rfl ⟨info, rfl, heq.symm⟩
      · rename_i hne
        rw [h.hashes]
        refine iff_of_false ?_ ?_
        · rintro ⟨t, ht, rfl⟩
          exact hne ((hclean.hash _ t ht).mp rfl)
        · rintro ⟨t, ⟨⟩, rfl⟩
          exact hne rfl
    · rw [if_neg hname]
      split
      · rename_i heq
        subst heq
        refine iff_of_false (fun hsome => hname (Option.some.inj hsome).symm) ?_
        rintro ⟨t, ht, hthash⟩
        exact hname ((hclean.hash name t ht).mpr hthash)
      · exact h.hashes hash name
  · intro s v hv
    simp only [get_register]
    rcases (mem_getVersions_register r info s v).mp hv with hv | ⟨rfl, rfl⟩
    · obtain ⟨name, t, ht, rfl, rfl⟩ := h.versions s v hv
      by_cases hname : name = info.name
      · subst hname
        rcases hclean.family t ht with ⟨hs, hversion⟩ | ⟨name', t', hne, ht', hs, hversion⟩
        · exact ⟨info.name, info, if_pos rfl, hs.symm, hversion.symm⟩
        · exact ⟨name', t', (if_neg hne).trans ht', hs, hversion⟩
      · exact ⟨name, t, (if_neg hname).trans ht, rfl, rfl⟩
    · exact ⟨info.name, info, if_pos rfl, rfl, rfl⟩

theorem persistencePath_after (path : Option String) (calls : List Registration) :
    (after path calls).persistencePath = path := by
  induction calls using List.reverseRecOn with
  | nil => rfl
  | append_singleton calls c ih =>
    rw [after_concat]
    exact ih

theorem recoverable_empty (path : Option String) : Recoverable (empty path) where
  hashes _ _ := iff_of_false nofun nofun
  versions _ _ hv := nomatch hv

/-- In every state of a run the registry survives a restart if and only if every registration
replaced cleanly. -/
theorem restart_recovers_iff {Text : Type} (codec : RegistryCodec Text) (hcodec : codec.Decodes) (path : String)
    (calls : List Registration) :
    (∀ before, before <+: calls → RoundTrips codec (after (some path) before)) ↔
      ∀ before c, before ++ [c] <+: calls → ReplacesCleanly (after (some path) before) c.info := by
  have hrule := Machine.foldl_throughout perform (fun r c => ReplacesCleanly r c.info)
    (fun r => r.WellFormed ∧ Recoverable r) ?_ calls (s := empty (some path))
    ⟨wellFormed_empty _, recoverable_empty _⟩
  · refine Iff.trans (forall₂_congr fun before _ => ?_) hrule
    have hr := wellFormed_after (some path) before
    rw [roundTrips_iff_recoverable hcodec (persistencePath_after _ before) hr]
    exact (and_iff_right hr).symm
  · rintro r c ⟨hr, h⟩
    rw [perform_eq, and_iff_right (wellFormed_register hr c.info)]
    exact ⟨replacesCleanly_of_recoverable hr h, h.register⟩

def orderFirst : TypeInfo := { TypeInfo.new "Order" 1 with hash := 100 }

def orderSecond : TypeInfo := { TypeInfo.new "Order" 2 with hash := 200 }

def orderVersions : List Registration := [.register orderFirst, .register orderSecond]

theorem orderSecond_clean : ReplacesCleanly (reload (some "registry.json") [orderFirst]) orderSecond where
  hash name t ht := by
    have hnames : ([orderFirst].map TypeInfo.name).Nodup := List.nodup_singleton _
    obtain ⟨hmem, rfl⟩ := (get_reload _ hnames name t).mp ht
    obtain rfl := List.mem_singleton.mp hmem
    exact iff_of_false (by decide) (by decide)
  family _ ht := nomatch ht

theorem orderVersions_clean (before : List Registration) (c : Registration) (hpre : before ++ [c] <+: orderVersions) :
    ReplacesCleanly (after (some "registry.json") before) c.info := by
  match before, hpre with
  | [], _ => exact ⟨nofun, nofun⟩
  | [first], hpre =>
    obtain ⟨rfl, hrest⟩ := List.cons_prefix_cons.mp hpre
    obtain ⟨rfl, -⟩ := List.cons_prefix_cons.mp hrest
    exact orderSecond_clean
  | _ :: _ :: _, hpre =>
    have hlen := hpre.length_le
    simp [orderVersions] at hlen

theorem versions_survive : RoundTrips jsonCodec (after (some "registry.json") orderVersions) :=
  (restart_recovers_iff jsonCodec jsonCodec_decodes "registry.json" orderVersions).mpr orderVersions_clean
    orderVersions List.prefix_rfl

def unhashedSchemas : List Registration := [.register (.new "Order" 1), .register (.new "Item" 1)]

/-- The loaded registry may find either schema by the hash. -/
theorem shared_hash_lost : ¬ RoundTrips jsonCodec (after (some "registry.json") unhashedSchemas) := by
  intro h
  have hr := wellFormed_after (some "registry.json") unhashedSchemas
  have hrecoverable := (roundTrips_iff_recoverable jsonCodec_decodes (persistencePath_after _ _) hr).mp h
  have hname := (hrecoverable.hashes 0 "Order@v1").mpr ⟨.new "Order" 1, rfl, rfl⟩
  have hitem : (after (some "registry.json") unhashedSchemas).byHash.get 0 = some "Item@v1" := rfl
  rw [hitem] at hname
  exact absurd (Option.some.inj hname) (by decide)

end Xerv.Schema.VersionedSchemaRegistry
