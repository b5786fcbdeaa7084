import Mathlib.Data.List.Forall2
import LingNet.Clients.Adapters

/-! What becomes of the messages in the payloads of the clients that convert them. -/
namespace LingNet.Clients
open Py

inductive Role where
  | system
  | user
  | assistant
  deriving DecidableEq, Repr

namespace Role

def name : Role → String
  | system => "system"
  | user => "user"
  | assistant => "assistant"

/-- The class of the role. -/
def isSystem (role : Role) : Bool := role = system

end Role

/-- A dictionary with a role and a content, and whatever else. -/
structure Message where
  role : Role
  content : String
  fields : List (String × Json)
  role_eq : fields.lookup "role" = some (.str role.name)
  content_eq : fields.lookup "content" = some (.str content)

def Message.toJson (m : Message) : Json := .dict m.fields

/-- The class of messages that a field of a payload is for, if it is for one. -/
abbrev Kind := Option Bool

/-- A text of a payload. -/
structure Slot where
  kind : Kind
  text : String

/-- The text consists of the contents of the messages, and they are such as it is for. -/
def Slot.Holds (slot : Slot) (group : List Message) : Prop :=
  slot.text.toList = group.flatMap (·.content.toList) ∧
    ∀ m ∈ group, ∀ b ∈ slot.kind, m.role.isSystem = b

/-- The messages of a class. -/
def ofClass (b : Bool) (messages : List Message) : List Message :=
  messages.filter fun m => m.role.isSystem = b

/-- Each content is in one of the texts, once, and those of a class are in their order. -/
def Conveys (messages : List Message) (slots : List Slot) : Prop :=
  ∃ groups : List (List Message), List.Forall₂ Slot.Holds slots groups ∧
    ∀ b, ofClass b groups.flatten = ofClass b messages

/-! The texts of a payload, as its service reads them. -/

/-- The text of a field. -/
def textOf (v : Json) (key : String) : String :=
  match v.getItem key with
  | .ok (.str s) => s
  | _ => ""

/-- The items of a field. -/
def itemsOf (v : Json) (key : String) : List Json :=
  match v.getItem key with
  | .ok (.list items) => items
  | _ => []

/-- The system text, if there is one, and the messages. -/
def AnthropicClient.slots (payload : Json) : List Slot :=
  (match payload.getItem "system" with
    | .ok (.str s) => [⟨some true, s⟩]
    | _ => []) ++
  (itemsOf payload "messages").map fun m => ⟨some false, textOf m "content"⟩

/-- The texts of all parts: Gemini has no field for the system. -/
def GoogleClient.slots (payload : Json) : List Slot :=
  (itemsOf payload "contents").flatMap fun content =>
    (itemsOf content "parts").map fun part => ⟨none, textOf part "text"⟩

/-- The history and the message behind it. -/
def CohereClient.slots (payload : Json) : List Slot :=
  ((itemsOf payload "chat_history").map fun entry =>
    ⟨some (textOf entry "role" = "SYSTEM"), textOf entry "message"⟩) ++
  [⟨some false, textOf payload "message"⟩]

/-- The texts that are for a class. -/
def slotsOf (b : Bool) (slots : List Slot) : List Slot := slots.filter (·.kind = some b)

/-- Every text is for one class. -/
def Sorted (slots : List Slot) : Prop := ∀ slot ∈ slots, ∃ b, slot.kind = some b

section Conveys

variable {messages : List Message} {slots : List Slot} {groups : List (List Message)}

theorem ofClass_append (b : Bool) (l m : List Message) :
    ofClass b (l ++ m) = ofClass b l ++ ofClass b m := List.filter_append ..

theorem ofClass_of_forall {b : Bool} (h : ∀ m ∈ messages, m.role.isSystem = b) :
    ofClass b messages = messages :=
  List.filter_eq_self.mpr fun m hm => by simpa using h m hm

theorem ofClass_of_forall_ne {b b' : Bool} (h : ∀ m ∈ messages, m.role.isSystem = b')
    (hne : b' ≠ b) : ofClass b messages = [] :=
  List.filter_eq_nil_iff.mpr fun m hm => by simpa [h m hm] using hne

/-- All that is written is all that is said. -/
theorem flatMap_eq (h : List.Forall₂ Slot.Holds slots groups) :
    slots.flatMap (·.text.toList) = groups.flatten.flatMap (·.content.toList) := by
  induction h with
  | nil => rfl
  | cons hslot _ ih =>
    rw [List.flatMap_cons, List.flatten_cons, List.flatMap_append, ih, hslot.1]

/-- The texts that are for a class hold its messages. -/
theorem exists_groups (h : List.Forall₂ Slot.Holds slots groups) (hsorted : Sorted slots)
    (b : Bool) : ∃ groups', List.Forall₂ Slot.Holds (slotsOf b slots) groups' ∧
      groups'.flatten = ofClass b groups.flatten := by
  induction h with
  | nil => exact ⟨[], .nil, rfl⟩
  | @cons slot group slots groups hslot hrest ih =>
    obtain ⟨⟨b', hkind⟩, hsorted⟩ := List.forall_mem_cons.mp hsorted
    obtain ⟨groups', hgroups', hflatten⟩ := ih hsorted
    have hclass : ∀ m ∈ group, m.role.isSystem = b' := fun m hm => hslot.2 m hm b' hkind
    rw [List.flatten_cons, ofClass_append, ← hflatten]
    by_cases hb : b' = b
    · refine ⟨group :: groups', ?_, ?_⟩
      · unfold slotsOf
        rw [List.filter_cons_of_pos (by simp [hkind, hb])]
        exact .cons hslot hgroups'
      · rw [← hb, ofClass_of_forall hclass, List.flatten_cons]
    · refine ⟨groups', ?_, ?_⟩
      · unfold slotsOf
        rw [List.filter_cons_of_neg (by simp [hkind, hb])]
        exact hgroups'
      · rw [ofClass_of_forall_ne hclass hb, List.nil_append]

/-- Messages whose contents are the texts of their class are conveyed. -/
theorem exists_groups_of_texts (hsorted : Sorted slots) (said : Bool → List Message)
    (hclass : ∀ b, ∀ m ∈ said b, m.role.isSystem = b)
    (htexts : ∀ b, (slotsOf b slots).map Slot.text = (said b).map Message.content) :
    ∃ groups, List.Forall₂ Slot.Holds slots groups ∧
      ∀ b, ofClass b groups.flatten = said b := by
  induction slots generalizing said with
  | nil =>
    refine ⟨[], .nil, fun b => ?_⟩
    exact (List.map_eq_nil_iff.mp (htexts b).symm).symm
  | cons slot slots ih =>
    obtain ⟨⟨b, hkind⟩, hsorted⟩ := List.forall_mem_cons.mp hsorted
    have hmine : (slotsOf b (slot :: slots)) = slot :: slotsOf b slots :=
      List.filter_cons_of_pos (by simp [hkind])
    have hother : ∀ b' ≠ b, slotsOf b' (slot :: slots) = slotsOf b' slots :=
      fun b' hb' => List.filter_cons_of_neg (by simpa [hkind] using Ne.symm hb')
    obtain ⟨m, rest, hsaid, hm, hrest⟩ : ∃ m rest, said b = m :: rest ∧
        m.content = slot.text ∧ rest.map Message.content = (slotsOf b slots).map Slot.text := by
      have hb := htexts b
      rw [hmine, List.map_cons] at hb
      obtain ⟨m, rest, hsaid, hm, hrest⟩ := List.map_eq_cons_iff.mp hb.symm
      exact ⟨m, rest, hsaid, hm, hrest⟩
    have hclassb := hclass b
    rw [hsaid] at hclassb
    obtain ⟨hmclass, hrestclass⟩ := List.forall_mem_cons.mp hclassb
    have hclass' := (Function.forall_update_iff said
      fun b' l => ∀ x ∈ l, x.role.isSystem = b').mpr ⟨hrestclass, fun b' _ => hclass b'⟩
    have htexts' := (Function.forall_update_iff said
      fun b' l => (slotsOf b' slots).map Slot.text = l.map Message.content).mpr
        ⟨hrest.symm, fun b' hb' => by rw [← htexts b', hother b' hb']⟩
    obtain ⟨groups, hgroups, hflatten⟩ := ih hsorted _ hclass' htexts'
    have hsingle : ∀ x ∈ [m], x.role.isSystem = b := by simpa using hmclass
    refine ⟨[m] :: groups, .cons ⟨by simp [hm], ?_⟩ hgroups, fun b' => ?_⟩
    · intro x hx b' hb'
      rw [hsingle x hx]
      exact Option.some.inj (hkind.symm.trans hb')
    · rw [List.flatten_cons, ofClass_append, hflatten]
      by_cases hb' : b' = b
      · rw [hb', Function.update_self, hsaid, ofClass_of_forall hsingle]
        rfl
      · rw [Function.update_of_ne hb', ofClass_of_forall_ne hsingle (Ne.symm hb'),
          List.nil_append]

theorem conveys_of_texts (hsorted : Sorted slots)
    (htexts : ∀ b, (slotsOf b slots).map Slot.text = (ofClass b messages).map Message.content) :
    Conveys messages slots := by
  refine exists_groups_of_texts hsorted (fun b => ofClass b messages) ?_ htexts
  intro b m hm
  simpa using (List.mem_filter.mp hm).2

theorem Slot.Holds.pos {slot : Slot} {group : List Message} (h : slot.Holds group)
    (hne : slot.text ≠ "") : 1 ≤ group.length := by
  refine List.length_pos_iff.mpr fun hempty => hne ?_
  have htext := h.1
  rw [hempty, List.flatMap_nil] at htext
  exact String.toList_eq_nil_iff.mp htext

theorem length_le_of_forall (h : List.Forall₂ Slot.Holds slots groups)
    (hne : ∀ slot ∈ slots, slot.text ≠ "") : slots.length ≤ groups.flatten.length := by
  induction h with
  | nil => exact le_rfl
  | cons hslot _ ih =>
    obtain ⟨hslotne, hne⟩ := List.forall_mem_cons.mp hne
    have hpos := hslot.pos hslotne
    have hrest := ih hne
    rw [List.flatten_cons, List.length_append, List.length_cons]
    omega

/-- If there are no more messages than texts, and no text is empty, then each is a content. -/
theorem map_content_of_forall (h : List.Forall₂ Slot.Holds slots groups)
    (hne : ∀ slot ∈ slots, slot.text ≠ "") (hlength : groups.flatten.length ≤ slots.length) :
    slots.map Slot.text = groups.flatten.map Message.content := by
  induction h with
  | nil => rfl
  | @cons slot group slots groups hslot hrest ih =>
    obtain ⟨hslotne, hne⟩ := List.forall_mem_cons.mp hne
    have hpos := hslot.pos hslotne
    have hle := length_le_of_forall hrest hne
    rw [List.flatten_cons, List.length_append, List.length_cons] at hlength
    obtain ⟨m, rfl⟩ := List.length_eq_one_iff.mp (by omega : group.length = 1)
    have htext : slot.text.toList = m.content.toList := by simpa using hslot.1
    rw [List.map_cons, List.flatten_cons, List.map_append, ← ih hne (by omega),
      String.toList_injective htext]
    rfl

end Conveys

/-! The payloads of messages. -/

/-- The content of the last of the messages. -/
def lastText (messages : List Message) : String := (messages.getLast?.map (·.content)).getD ""

@[simp] theorem lastText_concat (m : Message) : lastText (messages ++ [m]) = m.content := by
  unfold lastText
  rw [List.getLast?_concat]
  rfl

/-- The texts that become of the messages. -/
def AnthropicClient.slotsFor (messages : List Message) : List Slot :=
  (if lastText (ofClass true messages) = "" then []
    else [⟨some true, lastText (ofClass true messages)⟩]) ++
  (ofClass false messages).map fun m => ⟨some false, m.content⟩

def GoogleClient.slotsFor (messages : List Message) : List Slot :=
  messages.map fun m => ⟨none, m.content⟩

def CohereClient.historySlots (messages : List Message) : List Slot :=
  (messages.filter (·.role ≠ .user)).map fun m => ⟨some m.role.isSystem, m.content⟩

def CohereClient.slotsFor (messages : List Message) : List Slot :=
  historySlots messages ++ [⟨some false, lastText (messages.filter (·.role = .user))⟩]

section Payloads

variable (self : BaseModelClient) (messages : List Message) (kwargs : Kwargs)

@[simp] theorem getItem_dict (fields : List (String × Json)) (key : String) :
    (Json.dict fields).getItem key = Json.getField fields key := rfl

theorem getItem_role (m : Message) : m.toJson.getItem "role" = .ok (.str m.role.name) := by
  unfold Message.toJson
  rw [getItem_dict]
  unfold Json.getField
  rw [m.role_eq]

theorem getItem_content (m : Message) : m.toJson.getItem "content" = .ok (.str m.content) := by
  unfold Message.toJson
  rw [getItem_dict]
  unfold Json.getField
  rw [m.content_eq]

theorem foldlM_concat_of_ok {α β : Type} {f : β → α → Except Exn β} {s t : β} {l : List α} (a : α)
    (h : l.foldlM f s = .ok t) : (l ++ [a]).foldlM f s = f t a := by
  rw [List.foldlM_append, h]
  change f t a >>= pure = f t a
  cases f t a with
  | error e => rfl
  | ok r => rfl

/-- The system message that is taken out is the last one. -/
theorem AnthropicClient.foldlM_takeMessage :
    (messages.map Message.toJson).foldlM AnthropicClient.takeMessage (.str "", []) =
      .ok (.str (lastText (ofClass true messages)),
        (ofClass false messages).map Message.toJson) := by
  induction messages using List.reverseRecOn with
  | nil => rfl
  | append_singleton messages m ih =>
    rw [List.map_append, List.map_singleton, foldlM_concat_of_ok m.toJson ih, ofClass_append,
      ofClass_append]
    have hsingle : ∀ b, ofClass b [m] = if m.role.isSystem = b then [m] else [] := by
      intro b
      simp [ofClass, List.filter_cons]
    rw [hsingle, hsingle]
    cases hrole : m.role <;>
      simp [takeMessage, getItem_role, getItem_content, hrole, Role.name, Role.isSystem, Json.isStr,
        bind, Except.bind, pure, Except.pure]

/-- The history is made of all but the users' messages, and the last message is that of the last
user. -/
theorem CohereClient.foldlM_takeMessage :
    (messages.map Message.toJson).foldlM CohereClient.takeMessage ([], .str "") =
      .ok ((messages.filter (·.role ≠ .user)).map fun m =>
          .dict [("role", .str (if m.role = .system then "SYSTEM" else "CHATBOT")),
            ("message", .str m.content)],
        .str (lastText (messages.filter (·.role = .user)))) := by
  induction messages using List.reverseRecOn with
  | nil => rfl
  | append_singleton messages m ih =>
    rw [List.map_append, List.map_singleton, foldlM_concat_of_ok m.toJson ih, List.filter_append,
      List.filter_append]
    cases hrole : m.role <;>
      simp [takeMessage, getItem_role, getItem_content, hrole, Role.name, Json.isStr,
        bind, Except.bind, pure, Except.pure]

theorem GoogleClient.mapM_toContent :
    (messages.map Message.toJson).mapM GoogleClient.toContent =
      .ok (messages.map fun m =>
        .dict [("role", .str (if m.role = .assistant then "model" else "user")),
          ("parts", .list [.dict [("text", .str m.content)]])]) := by
  induction messages with
  | nil => rfl
  | cons m messages ih =>
    rw [List.map_cons, List.mapM_cons, ih]
    cases hrole : m.role <;>
      simp [toContent, getItem_role, getItem_content, hrole, Role.name, Json.isStr, bind,
        Except.bind, pure, Except.pure]

theorem AnthropicClient.slots_payload :
    ∃ payload, AnthropicClient.payload self (messages.map Message.toJson) kwargs = .ok payload ∧
      AnthropicClient.slots payload = AnthropicClient.slotsFor messages := by
  unfold AnthropicClient.payload AnthropicClient.slotsFor
  rw [foldlM_takeMessage]
  refine ⟨_, rfl, ?_⟩
  have htext : ∀ m : Message, textOf m.toJson "content" = m.content := by
    intro m
    unfold textOf
    rw [getItem_content]
  by_cases hlast : lastText (ofClass true messages) = ""
  · simp [AnthropicClient.slots, itemsOf, Json.getField, Json.truthy, List.lookup_cons, hlast, htext,
      Function.comp_def]
  · simp [AnthropicClient.slots, itemsOf, Json.getField, Json.truthy, List.lookup_cons, hlast, htext,
      Function.comp_def]

theorem GoogleClient.slots_payload :
    ∃ payload, GoogleClient.payload (messages.map Message.toJson) = .ok payload ∧
      GoogleClient.slots payload = GoogleClient.slotsFor messages := by
  unfold GoogleClient.payload GoogleClient.slotsFor
  rw [mapM_toContent]
  refine ⟨_, rfl, ?_⟩
  simp [GoogleClient.slots, itemsOf, textOf, Json.getField, List.lookup_cons, List.flatMap_map]
  exact List.map_eq_flatMap.symm

theorem CohereClient.slots_payload :
    ∃ payload, CohereClient.payload self (messages.map Message.toJson) kwargs = .ok payload ∧
      CohereClient.slots payload = CohereClient.slotsFor messages := by
  unfold CohereClient.payload CohereClient.slotsFor CohereClient.historySlots
  rw [foldlM_takeMessage]
  refine ⟨_, rfl, ?_⟩
  simp [CohereClient.slots, itemsOf, textOf, Json.getField, List.lookup_cons, Role.isSystem]

end Payloads

/-! When the messages are conveyed. No content is empty. -/

section Conditions

variable {messages : List Message}

/-- Behind a user's message there are no other ones of users, and assistants only repeat it. -/
def LastWord (m n : Message) : Prop :=
  m.role = .user → n.role = .system ∨ n.role = .assistant ∧ n.content = m.content

/-- The characters of contents. -/
def size (messages : List Message) : ℕ := (messages.flatMap (·.content.toList)).length

theorem size_append (l m : List Message) : size (l ++ m) = size l + size m := by
  unfold size
  rw [List.flatMap_append, List.length_append]

theorem eq_nil_of_size (hne : ∀ m ∈ messages, m.content ≠ "") (h : size messages = 0) :
    messages = [] := by
  cases messages with
  | nil => rfl
  | cons m messages =>
    have hempty : m.content.toList = [] := by
      have hzero := List.length_eq_zero_iff.mp h
      rw [List.flatMap_cons] at hzero
      exact (List.append_eq_nil_iff.mp hzero).1
    exact absurd (String.toList_eq_nil_iff.mp hempty) (hne m List.mem_cons_self)

/-- If the last of them is as long as all of them, then there is none or one. -/
theorem length_le_of_size (hne : ∀ m ∈ messages, m.content ≠ "")
    (h : size messages = (lastText messages).toList.length) : messages.length ≤ 1 := by
  rcases List.eq_nil_or_concat' messages with rfl | ⟨rest, m, rfl⟩
  · simp
  · have hsingle : size [m] = m.content.toList.length := by simp [size]
    rw [lastText_concat, size_append, hsingle] at h
    have hrest : rest = [] :=
      eq_nil_of_size (fun x hx => hne x (List.mem_append_left _ hx)) (by omega)
    rw [hrest]
    simp

theorem size_of_conveys {slots : List Slot} (h : Conveys messages slots) (hsorted : Sorted slots)
    (b : Bool) : size (ofClass b messages) =
      ((slotsOf b slots).flatMap (·.text.toList)).length := by
  obtain ⟨groups, hgroups, hclass⟩ := h
  obtain ⟨groups', hgroups', hflatten⟩ := exists_groups hgroups hsorted b
  rw [flatMap_eq hgroups', hflatten, hclass]
  rfl

theorem ofClass_true : ofClass true messages = messages.filter (·.role = .system) :=
  List.filter_congr fun m _ => by simp [Role.isSystem]

namespace AnthropicClient

theorem sorted_slotsFor (messages : List Message) : Sorted (slotsFor messages) := by
  intro slot hslot
  rcases List.mem_append.mp hslot with hslot | hslot
  · split_ifs at hslot
    · cases hslot
    · exact ⟨true, by rw [List.mem_singleton.mp hslot]⟩
  · obtain ⟨m, -, rfl⟩ := List.mem_map.mp hslot
    exact ⟨false, rfl⟩

theorem slotsOf_true : slotsOf true (slotsFor messages) =
    if lastText (ofClass true messages) = "" then []
    else [⟨some true, lastText (ofClass true messages)⟩] := by
  unfold slotsOf slotsFor
  rw [List.filter_append]
  split_ifs <;> simp

theorem slotsOf_false : slotsOf false (slotsFor messages) =
    (ofClass false messages).map fun m => ⟨some false, m.content⟩ := by
  unfold slotsOf slotsFor
  rw [List.filter_append]
  split_ifs <;> simp

/-- One system message at most is its own last one. -/
theorem texts_true (hne : ∀ m ∈ messages, m.content ≠ "")
    (hlength : (ofClass true messages).length ≤ 1) :
    (slotsOf true (slotsFor messages)).map Slot.text =
      (ofClass true messages).map Message.content := by
  rw [slotsOf_true]
  rcases Nat.le_one_iff_eq_zero_or_eq_one.mp hlength with hzero | hone
  · rw [List.length_eq_zero_iff.mp hzero]
    rfl
  · obtain ⟨m, hm⟩ := List.length_eq_one_iff.mp hone
    have hmem : m ∈ ofClass true messages := by
      rw [hm]
      exact List.mem_singleton_self m
    have hcontent : ¬ lastText [m] = "" := hne m (List.mem_of_mem_filter hmem)
    rw [hm, if_neg hcontent]
    rfl

theorem conveys_iff (hne : ∀ m ∈ messages, m.content ≠ "") :
    Conveys messages (slotsFor messages) ↔
      (messages.filter (·.role = .system)).length ≤ 1 := by
  rw [← ofClass_true]
  constructor
  · intro h
    refine length_le_of_size (fun m hm => hne m (List.mem_of_mem_filter hm)) ?_
    rw [size_of_conveys h (sorted_slotsFor messages) true, slotsOf_true]
    split_ifs with hempty
    · simp [hempty]
    · simp
  · intro hlength
    refine conveys_of_texts (sorted_slotsFor messages) fun b => ?_
    cases b with
    | false =>
      rw [slotsOf_false, List.map_map]
      rfl
    | true => exact texts_true hne hlength

end AnthropicClient

theorem GoogleClient.conveys (messages : List Message) :
    Conveys messages (GoogleClient.slotsFor messages) := by
  unfold GoogleClient.slotsFor
  refine ⟨messages.map fun m => [m], ?_, fun b => ?_⟩
  · rw [List.forall₂_map_left_iff, List.forall₂_map_right_iff, List.forall₂_same]
    intro m _
    exact ⟨by simp, by simp⟩
  · rw [← List.flatMap_def, List.flatMap_singleton']

/-- A list that stays as it is when its head goes to its end. -/
theorem concat_eq_cons_iff {α : Type} {l : List α} {a : α} :
    l ++ [a] = a :: l ↔ ∀ x ∈ l, x = a := by
  induction l with
  | nil => simp
  | cons b l ih =>
    rw [List.cons_append, List.forall_mem_cons, List.cons.injEq]
    refine and_congr_right fun hb => ?_
    rw [hb, ih]

/-- The texts are the contents in their order exactly if assistants only repeat the user's. -/
theorem texts_eq_iff {u : Message} (hclass : ∀ m ∈ messages, m.role ≠ .system)
    (huser : messages.filter (·.role = .user) = [u]) :
    (messages.filter (·.role ≠ .user)).map Message.content ++ [u.content] =
      messages.map Message.content ↔ messages.Pairwise LastWord := by
  induction messages with
  | nil => cases huser
  | cons m messages ih =>
    obtain ⟨hm, hclass⟩ := List.forall_mem_cons.mp hclass
    rw [List.pairwise_cons, List.map_cons]
    by_cases hrole : m.role = .user
    · rw [List.filter_cons_of_pos (by simpa using hrole), List.cons.injEq] at huser
      obtain ⟨rfl, hnone⟩ := huser
      have hnot : ∀ n ∈ messages, n.role ≠ .user := by
        simpa [List.filter_eq_nil_iff] using hnone
      have hkept : messages.filter (·.role ≠ .user) = messages :=
        List.filter_eq_self.mpr fun n hn => by simpa using hnot n hn
      have hrest : messages.Pairwise LastWord :=
        List.pairwise_of_forall_mem_list fun a ha b _ h => absurd h (hnot a ha)
      rw [List.filter_cons_of_neg (by simpa using hrole), hkept, concat_eq_cons_iff,
        and_iff_left hrest, List.forall_mem_map]
      refine forall_congr' fun n => forall_congr' fun hn => ?_
      unfold LastWord
      have hassistant : n.role = .assistant := by
        cases hn' : n.role with
        | system => exact absurd hn' (hclass n hn)
        | user => exact absurd hn' (hnot n hn)
        | assistant => rfl
      simp [hrole, hassistant]
    · rw [List.filter_cons_of_neg (by simpa using hrole)] at huser
      rw [List.filter_cons_of_pos (by simpa using hrole), List.map_cons, List.cons_append,
        List.cons.injEq, and_iff_right rfl, ih hclass huser, and_iff_right]
      intro n _ h
      exact absurd h hrole

theorem pairwise_ofClass_iff :
    (ofClass false messages).Pairwise LastWord ↔ messages.Pairwise LastWord := by
  unfold ofClass
  rw [List.pairwise_filter]
  refine List.Pairwise.iff fun m n => ⟨fun h hrole => ?_, fun h _ _ => h⟩
  by_cases hsystem : n.role = .system
  · exact .inl hsystem
  · exact h (by simp [Role.isSystem, hrole]) (by simp [Role.isSystem, hsystem]) hrole

theorem size_filter (messages : List Message) :
    size messages = size (messages.filter (·.role ≠ .user)) +
      size (messages.filter (·.role = .user)) := by
  induction messages with
  | nil => rfl
  | cons m messages ih =>
    have hcons : ∀ l, size (m :: l) = m.content.toList.length + size l := by
      intro l
      simp [size]
    by_cases hrole : m.role = .user
    · rw [List.filter_cons_of_neg (by simpa using hrole),
        List.filter_cons_of_pos (by simpa using hrole), hcons, hcons, ih]
      omega
    · rw [List.filter_cons_of_pos (by simpa using hrole),
        List.filter_cons_of_neg (by simpa using hrole), hcons, hcons, ih]
      omega

/-- If nobody speaks behind a user, then there is one user's message at most. -/
theorem length_users_of_pairwise (h : messages.Pairwise LastWord) :
    (messages.filter (·.role = .user)).length ≤ 1 := by
  rcases husers : messages.filter (·.role = .user) with _ | ⟨u, _ | ⟨v, rest⟩⟩
  · rw [husers]
    exact Nat.zero_le 1
  · rw [husers]
    exact le_rfl
  · have hpair := h.filter (·.role = .user)
    have huser : ∀ m ∈ messages.filter (·.role = .user), m.role = .user := by
      intro m hm
      simpa using (List.mem_filter.mp hm).2
    rw [husers] at hpair huser
    have hu := huser u List.mem_cons_self
    have hv := huser v (by simp)
    have hword := (List.pairwise_cons.mp hpair).1 v List.mem_cons_self hu
    rw [hv] at hword
    simp at hword

/-- A text that says nothing can stand at the end. -/
theorem Conveys.concat {slots : List Slot} (h : Conveys messages slots) (kind : Kind) :
    Conveys messages (slots ++ [⟨kind, ""⟩]) := by
  obtain ⟨groups, hgroups, hclass⟩ := h
  refine ⟨groups ++ [[]], List.rel_append hgroups (.cons ⟨rfl, by simp⟩ .nil), fun b => ?_⟩
  rw [List.flatten_append, ofClass_append, hclass]
  simp [ofClass]

namespace CohereClient

theorem sorted_historySlots (messages : List Message) : Sorted (historySlots messages) := by
  intro slot hslot
  obtain ⟨m, -, rfl⟩ := List.mem_map.mp hslot
  exact ⟨m.role.isSystem, rfl⟩

theorem sorted_slotsFor (messages : List Message) : Sorted (slotsFor messages) := by
  intro slot hslot
  rcases List.mem_append.mp hslot with hslot | hslot
  · exact sorted_historySlots messages slot hslot
  · exact ⟨false, by rw [List.mem_singleton.mp hslot]⟩

theorem slotsOf_historySlots (b : Bool) :
    slotsOf b (historySlots messages) = ((ofClass b messages).filter (·.role ≠ .user)).map fun m =>
      ⟨some m.role.isSystem, m.content⟩ := by
  unfold slotsOf historySlots ofClass
  rw [List.filter_map, List.filter_filter, List.filter_filter]
  congr 1
  exact List.filter_congr fun m _ => by simp [Bool.and_comm]

theorem texts_historySlots (b : Bool) : (slotsOf b (historySlots messages)).map Slot.text =
    ((ofClass b messages).filter (·.role ≠ .user)).map Message.content := by
  rw [slotsOf_historySlots, List.map_map]
  rfl

theorem slotsOf_true : slotsOf true (slotsFor messages) = slotsOf true (historySlots messages) := by
  simp [slotsOf, slotsFor]

theorem slotsOf_false : slotsOf false (slotsFor messages) =
    slotsOf false (historySlots messages) ++
      [⟨some false, lastText (messages.filter (·.role = .user))⟩] := by
  simp [slotsOf, slotsFor]

/-- No system message is a user's. -/
theorem texts_true : (slotsOf true (slotsFor messages)).map Slot.text =
    (ofClass true messages).map Message.content := by
  have hkept : (ofClass true messages).filter (·.role ≠ .user) = ofClass true messages := by
    refine List.filter_eq_self.mpr fun m hm => ?_
    have hsystem := (List.mem_filter.mp hm).2
    cases hrole : m.role <;> simp_all [Role.isSystem]
  rw [slotsOf_true, texts_historySlots, hkept]

theorem users_ofClass :
    (ofClass false messages).filter (·.role = .user) = messages.filter (·.role = .user) := by
  unfold ofClass
  rw [List.filter_filter]
  refine List.filter_congr fun m _ => ?_
  cases hrole : m.role <;> simp [Role.isSystem]

/-- Only one user's message can be conveyed. -/
theorem length_users_of_conveys (hne : ∀ m ∈ messages, m.content ≠ "")
    (h : Conveys messages (slotsFor messages)) :
    (messages.filter (·.role = .user)).length ≤ 1 := by
  refine length_le_of_size (fun m hm => hne m (List.mem_of_mem_filter hm)) ?_
  have hsize := size_of_conveys h (sorted_slotsFor messages) false
  have hhistory : ((slotsOf false (historySlots messages)).flatMap (·.text.toList)).length =
      size ((ofClass false messages).filter (·.role ≠ .user)) := by
    rw [slotsOf_historySlots, List.flatMap_map]
    rfl
  rw [slotsOf_false, List.flatMap_append, List.length_append, hhistory, size_filter,
    users_ofClass] at hsize
  simpa using hsize

theorem not_system_ofClass : ∀ m ∈ ofClass false messages, m.role ≠ .system := by
  intro m hm hsystem
  simpa [Role.isSystem, hsystem] using (List.mem_filter.mp hm).2

theorem length_slotsOf_false : (slotsOf false (slotsFor messages)).length =
    ((ofClass false messages).filter (·.role ≠ .user)).length + 1 := by
  rw [slotsOf_false, slotsOf_historySlots, List.length_append, List.length_map]
  rfl

/-- With one user, the texts that are not for the system are the contents: none is empty. -/
theorem texts_of_conveys {u : Message} (hne : ∀ m ∈ messages, m.content ≠ "")
    (hu : messages.filter (·.role = .user) = [u]) (h : Conveys messages (slotsFor messages)) :
    ((ofClass false messages).filter (·.role ≠ .user)).map Message.content ++ [u.content] =
      (ofClass false messages).map Message.content := by
  obtain ⟨groups, hgroups, hclass⟩ := h
  obtain ⟨groups', hgroups', hflatten⟩ := exists_groups hgroups (sorted_slotsFor messages) false
  rw [hclass] at hflatten
  have hmem : u ∈ messages := by
    have hsingle : u ∈ messages.filter (·.role = .user) := by
      rw [hu]
      exact List.mem_singleton_self u
    exact List.mem_of_mem_filter hsingle
  have hnonempty : ∀ slot ∈ slotsOf false (slotsFor messages), slot.text ≠ "" := by
    intro slot hslot
    rw [slotsOf_false, slotsOf_historySlots, hu, List.mem_append, List.mem_map,
      List.mem_singleton] at hslot
    rcases hslot with ⟨m, hm, rfl⟩ | rfl
    · exact hne m (List.mem_of_mem_filter (List.mem_of_mem_filter hm))
    · exact hne u hmem
  have hlength : groups'.flatten.length ≤ (slotsOf false (slotsFor messages)).length := by
    have hsplit := List.length_eq_length_filter_add (l := ofClass false messages)
      fun m => decide (m.role = .user)
    rw [users_ofClass, hu, List.length_singleton] at hsplit
    rw [hflatten, length_slotsOf_false, hsplit, Nat.add_comm]
    simp
  have htexts := map_content_of_forall hgroups' hnonempty hlength
  rw [slotsOf_false, List.map_append, texts_historySlots, hflatten, hu] at htexts
  exact htexts

theorem conveys_iff (hne : ∀ m ∈ messages, m.content ≠ "") :
    Conveys messages (slotsFor messages) ↔ messages.Pairwise LastWord := by
  have hnone : messages.filter (·.role = .user) = [] → ∀ m ∈ messages, m.role ≠ .user := by
    intro h
    simpa [List.filter_eq_nil_iff] using h
  constructor
  · intro h
    rcases Nat.le_one_iff_eq_zero_or_eq_one.mp (length_users_of_conveys hne h) with hzero | hone
    · have hnot := hnone (List.length_eq_zero_iff.mp hzero)
      exact List.pairwise_of_forall_mem_list fun m hm n _ hrole => absurd hrole (hnot m hm)
    · obtain ⟨u, hu⟩ := List.length_eq_one_iff.mp hone
      exact pairwise_ofClass_iff.mp ((texts_eq_iff not_system_ofClass (users_ofClass.trans hu)).mp
        (texts_of_conveys hne hu h))
  · intro h
    rcases Nat.le_one_iff_eq_zero_or_eq_one.mp (length_users_of_pairwise h) with hzero | hone
    · have husers := List.length_eq_zero_iff.mp hzero
      have hhistory : Conveys messages (historySlots messages) := by
        refine conveys_of_texts (sorted_historySlots messages) fun b => ?_
        rw [texts_historySlots]
        congr 1
        refine List.filter_eq_self.mpr fun m hm => ?_
        simpa using hnone husers m (List.mem_of_mem_filter hm)
      unfold slotsFor
      rw [husers]
      exact hhistory.concat (some false)
    · obtain ⟨u, hu⟩ := List.length_eq_one_iff.mp hone
      refine conveys_of_texts (sorted_slotsFor messages) fun b => ?_
      cases b with
      | true => exact texts_true
      | false =>
        rw [slotsOf_false, List.map_append, texts_historySlots, hu]
        exact (texts_eq_iff not_system_ofClass (users_ofClass.trans hu)).mpr
          (pairwise_ofClass_iff.mpr h)

end CohereClient

end Conditions

/-- Whatever the service answers, the call makes requests, and what they post is such. -/
def Posts (call : Routine ModelResponse) (good : Json → Prop) : Prop :=
  Adds call fun effects =>
    (∃ r, .request r ∈ effects) ∧ ∀ r, .request r ∈ effects → good r.payload

theorem posts_iff {call : Routine ModelResponse} {request : Request} {good : Json → Prop}
    (h : Adds call (Repeats request)) : Posts call good ↔ good request.payload := by
  constructor
  · intro hposts
    let wire : Wire := { outcomes := fun _ => .timeout "" }
    obtain ⟨effects, htrace, ⟨r, hr⟩, hgood⟩ := hposts (fun _ => 0) wire
    obtain ⟨effects', htrace', -, honly⟩ := h (fun _ => 0) wire
    have heffects : effects = effects' :=
      List.append_cancel_left (htrace.symm.trans htrace')
    rw [heffects] at hr hgood
    have heq := honly r hr
    rw [← heq]
    exact hgood r hr
  · intro hgood clock wire
    obtain ⟨effects, htrace, hmem, honly⟩ := h clock wire
    refine ⟨effects, htrace, ⟨request, hmem⟩, ?_⟩
    intro r hr
    rw [honly r hr]
    exact hgood

/-- All three clients post every content once, those of a class in their order, exactly if there is
one system message at most, and behind a user's message there are only system messages and
assistants that repeat it. -/
theorem conversion_iff (anthropic google cohere : BaseModelClient) (messages : List Message)
    (kwargs : Kwargs) (hne : ∀ m ∈ messages, m.content ≠ "") :
    (Posts (AnthropicClient.complete anthropic (messages.map Message.toJson) kwargs)
        (fun payload => Conveys messages (AnthropicClient.slots payload)) ∧
      Posts (GoogleClient.complete google (messages.map Message.toJson))
        (fun payload => Conveys messages (GoogleClient.slots payload)) ∧
      Posts (CohereClient.complete cohere (messages.map Message.toJson) kwargs)
        (fun payload => Conveys messages (CohereClient.slots payload))) ↔
    (messages.filter (·.role = .system)).length ≤ 1 ∧ messages.Pairwise LastWord := by
  obtain ⟨payload, hpayload, hslots⟩ := AnthropicClient.slots_payload anthropic messages kwargs
  obtain ⟨payload', hpayload', hslots'⟩ := GoogleClient.slots_payload messages
  obtain ⟨payload'', hpayload'', hslots''⟩ := CohereClient.slots_payload cohere messages kwargs
  unfold AnthropicClient.complete GoogleClient.complete CohereClient.complete
  rw [hpayload, hpayload', hpayload'', posts_iff (respond_adds (post_adds _ _ payload 30)),
    posts_iff (respond_adds (post_adds _ _ payload' 30)),
    posts_iff (respond_adds (post_adds _ _ payload'' 30))]
  dsimp only
  rw [hslots, hslots', hslots'', AnthropicClient.conveys_iff hne]
  refine and_congr_right fun _ => ?_
  rw [and_iff_right (GoogleClient.conveys messages)]
  exact CohereClient.conveys_iff hne

/-- A message with nothing but its role and its content. -/
def Message.plain (role : Role) (content : String) : Message where
  role := role
  content := content
  fields := [("role", .str role.name), ("content", .str content)]
  role_eq := rfl
  content_eq := rfl

def dialog : List Message :=
  [.plain .system "Be brief.", .plain .assistant "Hello!", .plain .user "Hi."]

theorem conversion_iff_dialog :
    Posts (AnthropicClient.complete (AnthropicClient.init "key") (dialog.map Message.toJson) [])
        (fun payload => Conveys dialog (AnthropicClient.slots payload)) ∧
      Posts (GoogleClient.complete (GoogleClient.init "key") (dialog.map Message.toJson))
        (fun payload => Conveys dialog (GoogleClient.slots payload)) ∧
      Posts (CohereClient.complete (CohereClient.init "key") (dialog.map Message.toJson) [])
        (fun payload => Conveys dialog (CohereClient.slots payload)) := by
  refine (conversion_iff (AnthropicClient.init "key") (GoogleClient.init "key")
    (CohereClient.init "key") dialog [] ?_).mpr ⟨?_, ?_⟩
  · simp [dialog, Message.plain]
  · simp [dialog, Message.plain]
  · simp [dialog, LastWord, Message.plain]

/-- Two system messages, of which the first one is lost. -/
def twoSystems : List Message :=
  [.plain .system "Be brief.", .plain .system "Be kind.", .plain .user "Hi."]

/-- Two messages of a user, of which the first one is lost. -/
def twoUsers : List Message :=
  [.plain .user "My name is Ann.", .plain .assistant "Hello!", .plain .user "Who am I?"]

theorem messages_lost :
    ¬ Posts (AnthropicClient.complete (AnthropicClient.init "key")
        (twoSystems.map Message.toJson) [])
      (fun payload => Conveys twoSystems (AnthropicClient.slots payload)) ∧
    ¬ Posts (CohereClient.complete (CohereClient.init "key") (twoUsers.map Message.toJson) [])
      (fun payload => Conveys twoUsers (CohereClient.slots payload)) := by
  constructor
  · intro hposts
    obtain ⟨payload, hpayload, hslots⟩ :=
      AnthropicClient.slots_payload (AnthropicClient.init "key") twoSystems []
    unfold AnthropicClient.complete at hposts
    rw [hpayload, posts_iff (respond_adds (post_adds _ _ payload 30))] at hposts
    dsimp only at hposts
    rw [hslots, AnthropicClient.conveys_iff (by simp [twoSystems, Message.plain])] at hposts
    simp [twoSystems, Message.plain] at hposts
  · intro hposts
    obtain ⟨payload, hpayload, hslots⟩ :=
      CohereClient.slots_payload (CohereClient.init "key") twoUsers []
    unfold CohereClient.complete at hposts
    rw [hpayload, posts_iff (respond_adds (post_adds _ _ payload 30))] at hposts
    dsimp only at hposts
    rw [hslots] at hposts
    have hpairwise := (CohereClient.conveys_iff (by simp [twoUsers, Message.plain])).mp hposts
    simp [twoUsers, LastWord, Message.plain] at hpairwise

end LingNet.Clients
