import Mathlib.Data.List.Dedup
import Mathlib.Data.List.Induction
import CacheCheck.Proofs.Memcached.BinarySession
import CacheCheck.Proofs.Memcached.FrameStream
import CacheCheck.Proofs.Store

/-!
Keys of binary frames are kept as texts. A frame can have any bytes for a key; they are read with
their faults replaced, and what is kept is kept under the text. So the keys of two frames are one
key when they are read as one text, and otherwise have nothing to do with each other: a store or a
deletion leaves the response to a read as it is, whatever is kept, just when the two keys are read
as different texts (`unchanged_iff`).

Different keys that are texts are read as different texts; keys with faults need not be
(`serve_aliased`). Hence what an endpoint has after stores and deletions is counted in texts
(`size_eq`), and in keys as they were sent where no two of those are read alike (`size_eq_keys`).
-/

set_option autoImplicit false

namespace CacheCheck.Memcached

namespace ByteFrame

/-- A frame that deletes a key. -/
def Deletes (sent : ByteFrame) : Prop :=
  sent.opcode = 0x04

/-- A frame that changes what is under a key, by a store or by a deletion. -/
def Changes (sent : ByteFrame) : Prop :=
  sent.request.isStore = true ∨ sent.Deletes

/-- A label was stored by some frame and not deleted by a later one. -/
def Kept {α : Type} (label : ByteFrame → α) (frames : List ByteFrame) (a : α) : Prop :=
  ∃ before store after, frames = before ++ store :: after ∧ store.request.isStore = true ∧
    label store = a ∧ ∀ later ∈ after, later.Deletes → label later ≠ a

def protocol : Protocol ByteFrame Response where
  bytes := bytes
  apply space sent := sent.request.apply space
  answer space sent := sent.request.response space
  send := Response.pack
  isQuit sent := sent.request.isQuit

theorem speaks : protocol.Speaks (BinaryWire.turn false) where
  next entries sent hquit rest :=
    BinaryWire.turn_of_incoming entries (sent.incoming_bytes rest) hquit
  quit entries sent hquit rest :=
    BinaryWire.turn_of_incoming_quit entries (sent.incoming_bytes rest) hquit
  closed _entries := rfl

/-! ### Single frames -/

theorem isQuit_of_changes {sent : ByteFrame} (h : sent.Changes) : sent.request.isQuit = false := by
  rw [Request.isQuit, decide_eq_false_iff_not]
  intro hcode
  rcases h with hstore | hdelete
  · simp only [Request.isStore, hcode] at hstore
    cases hstore
  · exact absurd (hdelete.symm.trans hcode) (by decide)

theorem apply_of_isStore {sent : ByteFrame} (h : sent.request.isStore = true) (space : KeySpace) :
    sent.request.apply space = space.put sent.text ⟨sent.request.flags, sent.value⟩ := by
  unfold Request.isStore at h
  unfold Request.apply
  split at h
  case h_4 => cases h
  all_goals
    next hcode => rw [hcode]; rfl

theorem apply_of_deletes {sent : ByteFrame} (h : sent.Deletes) (space : KeySpace) :
    sent.request.apply space = space.remove sent.text := by
  have hcode : sent.request.opcode.toNat = 0x04 := congrArg UInt8.toNat h
  rw [Request.apply, hcode]
  rfl

theorem not_deletes_of_isStore {sent : ByteFrame} (h : sent.request.isStore = true) :
    ¬ sent.Deletes := by
  intro hdelete
  have hcode : sent.request.opcode.toNat = 0x04 := congrArg UInt8.toNat hdelete
  simp only [Request.isStore, hcode] at h
  cases h

/-- A change leaves alone what is under other texts than its own. -/
theorem apply_of_ne {sent : ByteFrame} (h : sent.Changes) {text : String} (hne : text ≠ sent.text)
    (space : KeySpace) : sent.request.apply space text = space text := by
  rcases h with hstore | hdelete
  · rw [apply_of_isStore hstore]
    exact if_neg hne
  · rw [apply_of_deletes hdelete]
    exact if_neg hne

/-- What is there after a change: its own key, if it stores, and the others that were there. -/
theorem isSome_apply_iff {sent : ByteFrame} (h : sent.Changes) (space : KeySpace) (text : String) :
    (sent.request.apply space text).isSome = true ↔
      (sent.request.isStore = true ∧ sent.text = text) ∨
        ((space text).isSome = true ∧ (sent.Deletes → sent.text ≠ text)) := by
  by_cases htext : sent.text = text
  · subst htext
    rcases h with hstore | hdelete
    · rw [apply_of_isStore hstore, KeySpace.put, if_pos rfl]
      simp [hstore]
    · have hnot : ¬ sent.request.isStore = true := fun hstore ↦
        not_deletes_of_isStore hstore hdelete
      rw [apply_of_deletes hdelete, KeySpace.remove, if_pos rfl]
      simp [hnot, hdelete]
  · rw [apply_of_ne h (Ne.symm htext)]
    simp [htext]

/-- A read is answered by what is under its key. -/
theorem response_congr {read : ByteFrame} (hread : read.opcode = 0x00) {space space' : KeySpace}
    (h : space read.text = space' read.text) :
    read.request.response space = read.request.response space' := by
  have hcode : read.request.opcode.toNat = 0x00 := congrArg UInt8.toNat hread
  have hkey : space read.request.key = space' read.request.key := h
  rw [Request.response, Request.response, hcode]
  simp only [hkey]

/-- The status of the response to a read tells whether its key is there. -/
theorem pack_response_ne {read : ByteFrame} (hread : read.opcode = 0x00) {space space' : KeySpace}
    (hsome : (space read.text).isSome = true) (hnone : space' read.text = none) :
    (read.request.response space).pack ≠ (read.request.response space').pack := by
  have hcode : read.request.opcode.toNat = 0x00 := congrArg UInt8.toNat hread
  obtain ⟨entry, hentry⟩ := Option.isSome_iff_exists.mp hsome
  have hthere : space read.request.key = some entry := hentry
  have hmissing : space' read.request.key = none := hnone
  rw [Request.response, Request.response, hcode]
  simp only [hthere, hmissing]
  intro heq
  have hstatus := congrArg (·[7]?) heq
  simp [Response.pack, Request.respond, bigEndian] at hstatus

/-! ### Connections -/

/-- Frames are served as such, whatever they are. -/
theorem serve_eq (entries : Entries) (frames : List ByteFrame) :
    serve false entries (frames.flatMap bytes) =
      BinaryWire.serve false entries (frames.flatMap bytes) := by
  cases frames with
  | nil => exact (takeTurns_last rfl).trans (takeTurns_last rfl).symm
  | cons first rest => exact serve_eq_of_isPrefix rfl (List.prefix_refl _) false entries

theorem heard_of_changes {frames : List ByteFrame} (h : ∀ sent ∈ frames, sent.Changes) :
    protocol.heard frames = frames := by
  induction frames with
  | nil => rfl
  | cons first rest ih =>
    rw [protocol.heard_cons_of_next (isQuit_of_changes (h first List.mem_cons_self)),
      ih fun sent hmem ↦ h sent (List.mem_cons_of_mem first hmem)]

/-- Changes are made in order. -/
theorem space_serve {frames : List ByteFrame} (h : ∀ sent ∈ frames, sent.Changes)
    (entries : Entries) :
    (serve false entries (frames.flatMap bytes)).entries.space =
      protocol.after entries.space frames := by
  have hconversation := speaks.conversation (BinaryWire.turn_shorter false) entries frames
  have hspace := hconversation.space_eq
  rw [heard_of_changes h] at hspace
  rw [serve_eq]
  exact hspace

theorem space_serve_singleton {sent : ByteFrame} (h : sent.Changes) (entries : Entries) :
    (serve false entries sent.bytes).entries.space = sent.request.apply entries.space := by
  have hall : ∀ other ∈ [sent], other.Changes := by simpa using h
  have hspace := space_serve hall entries
  rwa [List.flatMap_singleton] at hspace

theorem reply_serve {read : ByteFrame} (hread : read.opcode = 0x00) (entries : Entries) :
    (serve false entries read.bytes).reply = (read.request.response entries.space).pack := by
  have hquit : protocol.isQuit read = false := by
    simp [protocol, Request.isQuit, request, hread]
  have hreply := (speaks.conversation (BinaryWire.turn_shorter false) entries [read]).reply_eq
  have hserve := serve_eq entries [read]
  rw [protocol.heard_cons_of_next hquit, List.flatMap_singleton] at hreply
  rw [List.flatMap_singleton] at hserve
  rw [hserve]
  exact hreply.trans (List.append_nil _)

/-! ### What is kept -/

theorem kept_concat {α : Type} (label : ByteFrame → α) (frames : List ByteFrame)
    (last : ByteFrame) (a : α) :
    Kept label (frames ++ [last]) a ↔
      (last.request.isStore = true ∧ label last = a) ∨
        (Kept label frames a ∧ (last.Deletes → label last ≠ a)) := by
  constructor
  · rintro ⟨before, store, after, heq, hstore, hlabel, hafter⟩
    rcases List.eq_nil_or_concat' after with rfl | ⟨init, latest, rfl⟩
    · obtain ⟨-, hlast⟩ := List.append_inj' heq rfl
      cases hlast
      exact .inl ⟨hstore, hlabel⟩
    · rw [← List.cons_append, ← List.append_assoc] at heq
      obtain ⟨rfl, hlast⟩ := List.append_inj' heq rfl
      cases hlast
      refine .inr ⟨⟨before, store, init, rfl, hstore, hlabel, fun later hmem ↦ ?_⟩, ?_⟩
      · exact hafter later (List.mem_append_left _ hmem)
      · exact hafter _ (List.mem_append_right _ List.mem_cons_self)
  · rintro (⟨hstore, hlabel⟩ | ⟨⟨before, store, after, rfl, hstore, hlabel, hafter⟩, hlast⟩)
    · exact ⟨frames, last, [], rfl, hstore, hlabel, fun later hmem ↦ by cases hmem⟩
    · refine ⟨before, store, after ++ [last], by simp, hstore, hlabel, fun later hmem ↦ ?_⟩
      rcases List.mem_append.mp hmem with hmem | hmem
      · exact hafter later hmem
      · rw [List.mem_singleton.mp hmem]
        exact hlast

/-- The texts that are there after changes to an empty space are those that are kept. -/
theorem isSome_after_iff {frames : List ByteFrame} (h : ∀ sent ∈ frames, sent.Changes)
    (key : String) :
    (protocol.after .empty frames key).isSome = true ↔ Kept text frames key := by
  induction frames using List.reverseRecOn with
  | nil =>
    simp [Protocol.after, KeySpace.empty, Kept]
  | append_singleton frames last ih =>
    have hlast : last.Changes := h last (List.mem_append_right _ List.mem_cons_self)
    have hafter : protocol.after .empty (frames ++ [last]) =
        last.request.apply (protocol.after .empty frames) := List.foldl_concat ..
    rw [hafter, isSome_apply_iff hlast, kept_concat,
      ih fun sent hmem ↦ h sent (List.mem_append_left _ hmem)]

/-- No two keys of frames are read alike. -/
def ReadApart (frames : List ByteFrame) : Prop :=
  ∀ sent ∈ frames, ∀ other ∈ frames, sent.text = other.text → sent.key = other.key

theorem kept_key_of_kept_text {frames : List ByteFrame} {name : String}
    (h : Kept text frames name) :
    ∃ bytes, Utf8.decodeLossy bytes = name ∧ Kept key frames bytes := by
  obtain ⟨before, store, after, heq, hstore, hname, hafter⟩ := h
  refine ⟨store.key, hname, before, store, after, heq, hstore, rfl, ?_⟩
  intro later hmem hdelete hkey
  have htext : later.text = store.text := congrArg Utf8.decodeLossy hkey
  exact hafter later hmem hdelete (htext.trans hname)

theorem kept_text_of_kept_key {frames : List ByteFrame} (hapart : ReadApart frames)
    {bytes : List UInt8} (h : Kept key frames bytes) :
    Kept text frames (Utf8.decodeLossy bytes) := by
  obtain ⟨before, store, after, rfl, hstore, rfl, hafter⟩ := h
  refine ⟨before, store, after, rfl, hstore, rfl, fun later hmem hdelete htext ↦ ?_⟩
  have hlater : later ∈ before ++ store :: after := by simp [hmem]
  exact hafter later hmem hdelete (hapart later hlater store (by simp) htext)

theorem mem_map_key_of_kept {frames : List ByteFrame} {bytes : List UInt8}
    (h : Kept key frames bytes) : bytes ∈ frames.map key := by
  obtain ⟨before, store, after, rfl, -, rfl, -⟩ := h
  exact List.mem_map_of_mem (by simp)

theorem isSome_serve_iff {frames : List ByteFrame} (h : ∀ sent ∈ frames, sent.Changes)
    (name : String) :
    ((serve false .empty (frames.flatMap bytes)).entries.get? name).isSome = true ↔
      Kept text frames name := by
  have hspace := congrFun (space_serve h .empty) name
  rw [← isSome_after_iff h, ← Entries.space_empty, ← hspace]
  rfl

/-- An endpoint that was empty has the texts that are kept. -/
theorem size_serve {frames : List ByteFrame} (h : ∀ sent ∈ frames, sent.Changes) :
    ∃ names : List String, names.Nodup ∧ (∀ name, name ∈ names ↔ Kept text frames name) ∧
      (serve false .empty (frames.flatMap bytes)).entries.size = names.length := by
  refine ⟨_, (serve false .empty (frames.flatMap bytes)).entries.distinct, fun name ↦ ?_, ?_⟩
  · rw [← Store.get?_isSome_iff, isSome_serve_iff h]
  · rw [List.length_map]
    rfl

/-- Where no two keys are read alike, it has the keys that are kept. -/
theorem size_serve_of_readApart {frames : List ByteFrame} (h : ∀ sent ∈ frames, sent.Changes)
    (hapart : ReadApart frames) :
    ∃ keys : List (List UInt8), keys.Nodup ∧ (∀ bytes, bytes ∈ keys ↔ Kept key frames bytes) ∧
      (serve false .empty (frames.flatMap bytes)).entries.size = keys.length := by
  classical
  let keys := (frames.map key).dedup.filter fun bytes ↦ Kept key frames bytes
  have hkeys (bytes : List UInt8) : bytes ∈ keys ↔ Kept key frames bytes := by
    rw [List.mem_filter, List.mem_dedup, decide_eq_true_iff]
    exact ⟨And.right, fun hkept ↦ ⟨mem_map_key_of_kept hkept, hkept⟩⟩
  have hnodup : keys.Nodup := (List.nodup_dedup _).filter _
  have hinj : ∀ bytes ∈ keys, ∀ other ∈ keys,
      Utf8.decodeLossy bytes = Utf8.decodeLossy other → bytes = other := by
    intro bytes hbytes other hother htext
    obtain ⟨sent, hsent, rfl⟩ := List.mem_map.mp (mem_map_key_of_kept ((hkeys _).mp hbytes))
    obtain ⟨sent', hsent', rfl⟩ := List.mem_map.mp (mem_map_key_of_kept ((hkeys _).mp hother))
    exact hapart sent hsent sent' hsent' htext
  refine ⟨keys, hnodup, hkeys, ?_⟩
  have hsize := Store.size_eq_length (s := (serve false .empty (frames.flatMap bytes)).entries)
    (hnodup.map_on hinj) fun name ↦ ?_
  · rwa [List.length_map] at hsize
  · rw [isSome_serve_iff h, List.mem_map]
    constructor
    · intro hkept
      obtain ⟨bytes, hname, hbytes⟩ := kept_key_of_kept_text hkept
      exact ⟨bytes, (hkeys bytes).mpr hbytes, hname⟩
    · rintro ⟨bytes, hbytes, rfl⟩
      exact kept_text_of_kept_key hapart ((hkeys bytes).mp hbytes)

/-- A change leaves a read as it is, whatever is kept, when the keys are read as different texts;
and when they are read as one, there is something kept that makes a difference. -/
theorem unchanged_iff {write read : ByteFrame} (hwrite : write.Changes)
    (hread : read.opcode = 0x00) :
    (∀ entries : Entries,
        (serve false (serve false entries write.bytes).entries read.bytes).reply =
          (serve false entries read.bytes).reply) ↔
      write.text ≠ read.text := by
  simp only [reply_serve hread, space_serve_singleton hwrite]
  constructor
  · intro hsame htext
    rcases hwrite with hstore | hdelete
    · refine pack_response_ne hread ?_ rfl (hsame .empty)
      rw [apply_of_isStore hstore, htext, KeySpace.put, if_pos rfl]
      rfl
    · refine pack_response_ne hread ?_ ?_ (hsame (Entries.put .empty read.text "")).symm
      · rw [Entries.put, Entries.space_insert, KeySpace.put, if_pos rfl]
        rfl
      · rw [apply_of_deletes hdelete, htext, KeySpace.remove, if_pos rfl]
  · intro htext entries
    rw [response_congr hread (apply_of_ne hwrite htext.symm _)]

end ByteFrame

open ByteFrame

/-- What it comes to that keys are kept as the texts they are read as. -/
structure KeptByText : Prop where
  /-- Keys that are read as different texts have nothing to do with each other, and no others. -/
  unchanged_iff {write read : ByteFrame} (hwrite : write.Changes) (hread : read.opcode = 0x00) :
    (∀ entries : Entries,
        (serve false (serve false entries write.bytes).entries read.bytes).reply =
          (serve false entries read.bytes).reply) ↔
      Utf8.decodeLossy write.key ≠ Utf8.decodeLossy read.key
  /-- Different keys that are texts are read as different texts. -/
  texts_apart (name other : String) : Utf8.encode name ≠ Utf8.encode other →
    Utf8.decodeLossy (Utf8.encode name) ≠ Utf8.decodeLossy (Utf8.encode other)
  size_eq {frames : List ByteFrame} (h : ∀ sent ∈ frames, sent.Changes) :
    ∃ names : List String, names.Nodup ∧
      (∀ name, name ∈ names ↔ Kept (fun sent ↦ Utf8.decodeLossy sent.key) frames name) ∧
      (serve false .empty (frames.flatMap bytes)).entries.size = names.length
  size_eq_keys {frames : List ByteFrame} (h : ∀ sent ∈ frames, sent.Changes)
    (hapart : ReadApart frames) :
    ∃ keys : List (List UInt8), keys.Nodup ∧ (∀ bytes, bytes ∈ keys ↔ Kept key frames bytes) ∧
      (serve false .empty (frames.flatMap bytes)).entries.size = keys.length

theorem keptByText : KeptByText where
  unchanged_iff := ByteFrame.unchanged_iff
  texts_apart name other hne htext := by
    rw [Utf8.decodeLossy_encode, Utf8.decodeLossy_encode] at htext
    exact hne (congrArg Utf8.encode htext)
  size_eq := size_serve
  size_eq_keys := size_serve_of_readApart

/-- A store and a read under a key of one byte. -/
def storeOf (b : UInt8) : ByteFrame :=
  ⟨0x01, 0, List.replicate 8 0, [b], [0x31], {}, by decide, by simp, by
    change 10 < 4294967296
    decide⟩

@[inherit_doc storeOf] def readOf (b : UInt8) : ByteFrame :=
  ⟨0x00, 0, [], [b], [], {}, by decide, by simp, by
    change 1 < 4294967296
    decide⟩

theorem text_of_fault {b : UInt8} (h : 0xF4 < b.toNat) :
    Utf8.decodeLossy [b] = String.singleton Utf8.replacement := by
  have hnext : Utf8.next b [] = (none, []) := by rw [Utf8.next, Utf8.lead?_of_F4_lt h]
  have hpieces : Utf8.pieces [b] = [none] := by rw [Utf8.pieces, hnext, Utf8.pieces]
  rw [Utf8.decodeLossy, hpieces]
  rfl

/-- Two keys with a fault are one key: what is stored under the first is found under the second, and
of two stores one is left. -/
theorem serve_aliased :
    (storeOf 0xFF).key ≠ (readOf 0xFE).key ∧
      (serve false (serve false .empty (storeOf 0xFF).bytes).entries (readOf 0xFE).bytes).reply ≠
        (serve false .empty (readOf 0xFE).bytes).reply ∧
      Kept key [storeOf 0xFF, storeOf 0xFE] [0xFF] ∧ Kept key [storeOf 0xFF, storeOf 0xFE] [0xFE] ∧
      (serve false .empty ([storeOf 0xFF, storeOf 0xFE].flatMap bytes)).entries.size = 1 := by
  have hchanges (b : UInt8) : (storeOf b).Changes := .inl rfl
  have hboth : ∀ sent ∈ [storeOf 0xFF, storeOf 0xFE], sent.Changes := by simp [hchanges]
  have hread (b : UInt8) : (readOf b).text = (storeOf b).text := rfl
  have htexts : (storeOf 0xFF).text = (storeOf 0xFE).text :=
    (text_of_fault (by decide)).trans (text_of_fault (by decide)).symm
  refine ⟨by decide, ?_, ?_, ?_, ?_⟩
  · rw [reply_serve rfl, reply_serve rfl, space_serve_singleton (hchanges 0xFF)]
    refine pack_response_ne rfl ?_ rfl
    rw [apply_of_isStore rfl, hread, ← htexts, KeySpace.put, if_pos rfl]
    rfl
  · refine ⟨[], storeOf 0xFF, [storeOf 0xFE], rfl, rfl, rfl, fun later hmem hdelete ↦ ?_⟩
    rw [List.mem_singleton.mp hmem] at hdelete
    cases hdelete
  · exact ⟨[storeOf 0xFF], storeOf 0xFE, [], rfl, rfl, rfl, by simp⟩
  · refine Store.size_eq_length (List.nodup_singleton (storeOf 0xFE).text) fun name ↦ ?_
    rw [isSome_serve_iff hboth, List.mem_singleton]
    constructor
    · rintro ⟨before, store, after, heq, -, rfl, -⟩
      have hstore : store ∈ [storeOf 0xFF, storeOf 0xFE] := by simp [heq]
      rcases List.mem_pair.mp hstore with rfl | rfl
      · exact htexts
      · rfl
    · rintro rfl
      exact ⟨[storeOf 0xFF], storeOf 0xFE, [], rfl, rfl, rfl, by simp⟩

end CacheCheck.Memcached
