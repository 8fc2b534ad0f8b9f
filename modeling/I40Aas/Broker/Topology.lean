import I40Aas.EndpointResolver.Delivery
import I40Aas.HttpsIngress.Topic
import I40Aas.Lib.TopicExchange

/-!
The queues of the message broker and the keys they are bound with, in the configuration of
the repository. Everything goes over one topic exchange: the ingresses publish under the
protocol, the role and the type of the message, the skills under the key of the resolver, and
the resolver under the keys of the egresses.
-/

namespace I40Aas.Broker

open I40Aas.Lib I40Aas.Interaction I40Aas.HttpsIngress

/-! ### The environment -/

def CORE_INGRESS_EXCHANGE : String := "egress"
def CORE_EGRESS_EXCHANGE : String := "egress"
def CORE_EGRESS_ROUTINGKEY : String := "egress.generic"
def CORE_EGRESS_GRPC_QUEUE : String := "grpc"
def CORE_EGRESS_HTTP_QUEUE : String := "http"
def SKILLS_ONBOARDING_ROOT_TOPIC : String :=
  "ingress.i40:registry-semanticProtocol/onboarding.CentralAssetRepository"

/-! ### The bindings -/

/-- A binding key in words. -/
def bindingKey (key : String) : List (BindingWord (List Char)) :=
  (words key).map fun w => if w = ['*'] then .one else if w = ['#'] then .many else .word w

/-- The queues of the endpoint resolver, of the egresses, of the echo skill and of the
onboarding skills; each process of an onboarding skill has one of its own. -/
inductive Queue
  | generic
  | http
  | grpc
  | simpleSkillIn
  | onboarding (uuid : String)
  deriving DecidableEq, Repr

def Queue.name : Queue → String
  | .generic => "generic"
  | .http => CORE_EGRESS_HTTP_QUEUE
  | .grpc => CORE_EGRESS_GRPC_QUEUE
  | .simpleSkillIn => "simple-skill-in"
  | .onboarding uuid => SKILLS_ONBOARDING_ROOT_TOPIC ++ "/" ++ uuid

def bindings (uuids : List String) : List (Binding Queue (List Char)) :=
  [⟨.generic, bindingKey CORE_EGRESS_ROUTINGKEY⟩,
    ⟨.http, bindingKey (CORE_EGRESS_EXCHANGE ++ "." ++ CORE_EGRESS_HTTP_QUEUE)⟩,
    ⟨.grpc, bindingKey (CORE_EGRESS_EXCHANGE ++ "." ++ CORE_EGRESS_GRPC_QUEUE)⟩,
    ⟨.simpleSkillIn, bindingKey "ingress.i40:registry-semanticProtocol/echo.#"⟩] ++
  uuids.map fun uuid => ⟨.onboarding uuid, bindingKey (SKILLS_ONBOARDING_ROOT_TOPIC ++ ".*")⟩

/-- The queues that get a message published under the key. -/
def queuesOf (uuids : List String) (key : String) : List Queue :=
  route (bindings uuids) (words key)

/-- No two of them are the same queue of the broker. -/
theorem Queue.name_injective : Function.Injective Queue.name := by
  have honboarding : ∀ uuid name, name.length < SKILLS_ONBOARDING_ROOT_TOPIC.length →
      Queue.name (.onboarding uuid) ≠ name := by
    rintro uuid name hlength rfl
    simp only [Queue.name, String.length_append] at hlength
    omega
  intro q q' h
  cases q with
  | onboarding uuid =>
      cases q' with
      | onboarding uuid' =>
          have huuid := congrArg String.toList h
          simp only [Queue.name, String.toList_append, List.append_cancel_left_eq] at huuid
          rw [String.toList_inj.mp huuid]
      | _ => exact absurd h (honboarding uuid _ (by decide))
  | _ =>
      cases q' with
      | onboarding uuid' => exact absurd h.symm (honboarding uuid' _ (by decide))
      | _ => first | rfl | exact absurd h (by decide)

/-! ### Words -/

theorem words_append (a b : String) : words (a ++ "." ++ b) = words a ++ words b := by
  have hlist : (a ++ "." ++ b).toList = a.toList ++ '.' :: b.toList := by
    simp [String.toList_append]
  rw [words, hlist, List.splitOn, List.splitOnP_append_cons _ _ (by rfl)]
  rfl

theorem words_ne_nil (key : String) : words key ≠ [] := List.splitOnP_ne_nil _ _

theorem words_of_not_mem {key : String} (h : '.' ∉ key.toList) : words key = [key.toList] := by
  refine List.splitOnP_eq_singleton fun c hc => ?_
  simpa using fun hdot : c = '.' => h (hdot ▸ hc)

theorem eq_of_words {key key' : String} (h : words key = words key') : key = key' := by
  have hjoined := congrArg (List.intercalate ['.']) h
  rw [words, words, List.intercalate_splitOn, List.intercalate_splitOn] at hjoined
  exact String.toList_inj.mp hjoined

/-- A text that begins with the words of another one goes on after them with a dot. -/
theorem exists_words_append_iff {key key' : String} :
    (∃ rest, words key = words key' ++ rest) ↔ key = key' ∨ ∃ rest, key = key' ++ "." ++ rest := by
  constructor
  · rintro ⟨rest, hrest⟩
    cases rest with
    | nil => exact .inl (eq_of_words (by rw [hrest, List.append_nil]))
    | cons w ws =>
        refine .inr ⟨String.ofList (['.'].intercalate (w :: ws)), String.toList_inj.mp ?_⟩
        have hkey := congrArg (List.intercalate ['.']) hrest
        rw [intercalate_append (words_ne_nil key') (List.cons_ne_nil w ws), words, words,
          List.intercalate_splitOn, List.intercalate_splitOn] at hkey
        simp [String.toList_append, hkey]
  · rintro (rfl | ⟨rest, rfl⟩)
    · exact ⟨[], by rw [List.append_nil]⟩
    · exact ⟨words rest, words_append key' rest⟩

/-- Only a text without dots is one word. -/
theorem words_eq_singleton_iff {key : String} {w : List Char} :
    words key = [w] ↔ key.toList = w ∧ '.' ∉ w := by
  constructor
  · intro h
    have hno : '.' ∉ key.toList := by
      intro hmem
      obtain ⟨before, after, hkey, -⟩ := List.eq_append_cons_of_mem hmem
      rw [words, hkey, List.splitOn, List.splitOnP_append_cons _ _ (by rfl)] at h
      have hlength := congrArg List.length h
      have hbefore := List.length_pos_of_ne_nil (List.splitOnP_ne_nil (· == '.') before)
      have hafter := List.length_pos_of_ne_nil (List.splitOnP_ne_nil (· == '.') after)
      rw [List.length_append, List.length_singleton] at hlength
      omega
    rw [words_of_not_mem hno] at h
    obtain rfl := (List.cons.inj h).1
    exact ⟨rfl, hno⟩
  · rintro ⟨rfl, hno⟩
    exact words_of_not_mem hno

/-- What stands before the first dot belongs to the first word. -/
theorem splitOn_append {a : List Char} (ha : '.' ∉ a) (b : List Char) :
    (a ++ b).splitOn '.' = (b.splitOn '.').modifyHead (a ++ ·) := by
  induction a with
  | nil =>
      rw [List.nil_append]
      cases b.splitOn '.' <;> rfl
  | cons c a ih =>
      rw [List.mem_cons, not_or] at ha
      rw [List.cons_append, List.splitOn, List.splitOnP_cons_eq_if_modifyHead,
        if_neg (by simpa using Ne.symm ha.1)]
      rw [List.splitOn] at ih
      rw [ih ha.2]
      cases List.splitOn '.' b <;> rfl

/-! ### The first dot -/

/-- A text has no dots, or `noDots` replaces the first one. -/
theorem noDots_cases (str : String) :
    '.' ∉ str.toList ∧ noDots str = str ∨
      ∃ a b, '.' ∉ a ∧ str.toList = a ++ '.' :: b ∧ (noDots str).toList = a ++ '-' :: b := by
  by_cases hmem : '.' ∈ str.toList
  · obtain ⟨a, b, hstr, ha⟩ := List.eq_append_cons_of_mem hmem
    refine .inr ⟨a, b, ha, hstr, ?_⟩
    rw [noDots, String.toList_ofList, hstr, List.replace_append_right ha, List.replace_cons_self]
  · exact .inl ⟨hmem, noDots_of_not_mem hmem⟩

/-- Where a text with one dash comes from. -/
theorem noDots_eq_iff {str : String} {a b : List Char} (ha : '-' ∉ a) (hb : '-' ∉ b)
    (hadot : '.' ∉ a) (hbdot : '.' ∉ b) :
    (noDots str).toList = a ++ '-' :: b ↔
      str.toList = a ++ '-' :: b ∨ str.toList = a ++ '.' :: b := by
  constructor
  · intro h
    rcases noDots_cases str with ⟨-, heq⟩ | ⟨a', b', -, hstr, hdashed⟩
    · exact .inl (heq ▸ h)
    · obtain ⟨rfl, -, rfl⟩ := (List.append_cons_inj_of_notMem ha hb).mp (h.symm.trans hdashed)
      exact .inr hstr
  · rintro (h | h)
    · rw [noDots_of_not_mem (by simp [h, hadot, hbdot]), h]
    · rw [noDots, String.toList_ofList, h, List.replace_append_right hadot,
        List.replace_cons_self]

/-! ### The routing table -/

theorem bindingKey_eq_words {key : String} (h : ['*'] ∉ words key) (h' : ['#'] ∉ words key) :
    bindingKey key = (words key).map .word := by
  refine List.map_congr_left fun w hw => ?_
  rw [if_neg (fun heq : w = ['*'] => h (heq ▸ hw)), if_neg (fun heq : w = ['#'] => h' (heq ▸ hw))]

/-- A binding key without wildcards. -/
theorem fits_bindingKey_iff {key key' : String} (h : ['*'] ∉ words key) (h' : ['#'] ∉ words key) :
    Fits (bindingKey key) (words key') ↔ key' = key := by
  rw [bindingKey_eq_words h h', fits_word_iff]
  exact ⟨eq_of_words, congrArg words⟩

theorem fits_echo_iff {ws : List (List Char)} :
    Fits (bindingKey "ingress.i40:registry-semanticProtocol/echo.#") ws ↔
      ∃ rest, ws =
        ["ingress".toList, "i40:registry-semanticProtocol/echo".toList] ++ rest := by
  have hkey : bindingKey "ingress.i40:registry-semanticProtocol/echo.#" =
      ["ingress".toList, "i40:registry-semanticProtocol/echo".toList].map .word ++ [.many] := by
    decide
  rw [hkey, fits_word_append_iff]
  constructor
  · rintro ⟨rest, hws, -⟩
    exact ⟨rest, hws⟩
  · rintro ⟨rest, hws⟩
    exact ⟨rest, hws, fits_many rest⟩

theorem fits_onboarding_iff {ws : List (List Char)} :
    Fits (bindingKey (SKILLS_ONBOARDING_ROOT_TOPIC ++ ".*")) ws ↔
      ∃ w, ws = ["ingress".toList, "i40:registry-semanticProtocol/onboarding".toList,
        "CentralAssetRepository".toList, w] := by
  have hkey : bindingKey (SKILLS_ONBOARDING_ROOT_TOPIC ++ ".*") =
      ["ingress".toList, "i40:registry-semanticProtocol/onboarding".toList,
        "CentralAssetRepository".toList].map .word ++ [.one] := by
    decide
  rw [hkey, fits_word_append_iff]
  simp only [fits_one_iff]
  constructor
  · rintro ⟨_, hws, w, rfl⟩
    exact ⟨w, hws⟩
  · rintro ⟨w, hws⟩
    exact ⟨[w], hws, w, rfl⟩

/-- Who gets a message that is published under a key. -/
theorem mem_queuesOf_iff {uuids : List String} {key : String} {q : Queue} :
    q ∈ queuesOf uuids key ↔
      q = .generic ∧ key = "egress.generic" ∨ q = .http ∧ key = "egress.http" ∨
      q = .grpc ∧ key = "egress.grpc" ∨
      q = .simpleSkillIn ∧ (∃ rest, words key =
        ["ingress".toList, "i40:registry-semanticProtocol/echo".toList] ++ rest) ∨
      (∃ uuid ∈ uuids, q = .onboarding uuid) ∧ ∃ w, words key =
        ["ingress".toList, "i40:registry-semanticProtocol/onboarding".toList,
          "CentralAssetRepository".toList, w] := by
  have hgeneric : Fits (bindingKey CORE_EGRESS_ROUTINGKEY) (words key) ↔ key = "egress.generic" :=
    fits_bindingKey_iff (by decide) (by decide)
  have hhttp : Fits (bindingKey (CORE_EGRESS_EXCHANGE ++ "." ++ CORE_EGRESS_HTTP_QUEUE))
      (words key) ↔ key = "egress.http" := fits_bindingKey_iff (by decide) (by decide)
  have hgrpc : Fits (bindingKey (CORE_EGRESS_EXCHANGE ++ "." ++ CORE_EGRESS_GRPC_QUEUE))
      (words key) ↔ key = "egress.grpc" := fits_bindingKey_iff (by decide) (by decide)
  rw [queuesOf, mem_route_iff]
  constructor
  · rintro ⟨b, hb, rfl, hfits⟩
    simp only [bindings, List.mem_append, List.mem_cons, List.not_mem_nil, or_false,
      List.mem_map] at hb
    rcases hb with (rfl | rfl | rfl | rfl) | ⟨uuid, huuid, rfl⟩
    · exact .inl ⟨rfl, hgeneric.mp hfits⟩
    · exact .inr (.inl ⟨rfl, hhttp.mp hfits⟩)
    · exact .inr (.inr (.inl ⟨rfl, hgrpc.mp hfits⟩))
    · exact .inr (.inr (.inr (.inl ⟨rfl, fits_echo_iff.mp hfits⟩)))
    · exact .inr (.inr (.inr (.inr ⟨⟨uuid, huuid, rfl⟩, fits_onboarding_iff.mp hfits⟩)))
  · rintro (⟨rfl, hkey⟩ | ⟨rfl, hkey⟩ | ⟨rfl, hkey⟩ | ⟨rfl, hkey⟩ | ⟨⟨uuid, huuid, rfl⟩, hkey⟩)
    · exact ⟨_, List.mem_append_left _ List.mem_cons_self, rfl, hgeneric.mpr hkey⟩
    · exact ⟨_, List.mem_append_left _ (List.mem_cons_of_mem _ List.mem_cons_self), rfl,
        hhttp.mpr hkey⟩
    · exact ⟨_, List.mem_append_left _
        (List.mem_cons_of_mem _ (List.mem_cons_of_mem _ List.mem_cons_self)), rfl,
        hgrpc.mpr hkey⟩
    · exact ⟨_, List.mem_append_left _ (List.mem_cons_of_mem _ (List.mem_cons_of_mem _
        (List.mem_cons_of_mem _ List.mem_cons_self))), rfl, fits_echo_iff.mpr hkey⟩
    · exact ⟨_, List.mem_append_right _ (List.mem_map_of_mem huuid), rfl,
        fits_onboarding_iff.mpr hkey⟩

end I40Aas.Broker
