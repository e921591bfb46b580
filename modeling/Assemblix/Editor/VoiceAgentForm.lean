import Assemblix.Library.Dict
import Assemblix.Library.Json

/-
The form of a voice agent: a stored agent as a draft, and the draft as a request.

Blocks that the form does not take apart are dictionaries: the params, the avatar, the blocks of a
cascade, and what stands in a block beside its declared keys. Two agents are the same if they have
the same values under all keys.
-/

namespace Assemblix.VoiceAgentForm

open Library

abbrev Block : Type := Dict String Json

structure AgentInstruction where
  role : String
  content : String
  extra : Block
  deriving DecidableEq

inductive VoiceAgentMode
  | realtime
  | cascade
  deriving DecidableEq

structure VoiceOutputConfig where
  provider : String
  model : String
  voiceId : Option String
  credentialId : Option String
  realtime : Bool
  extra : Block
  deriving DecidableEq

structure VoiceAgentCascadeConfig where
  stt : Block
  turn : Block
  brain : Block
  extra : Block
  deriving DecidableEq

structure VoiceAgentConfig where
  instructions : List AgentInstruction
  knowledgeBaseIds : List String
  firstMessage : Option String
  language : String
  mode : Option VoiceAgentMode
  voice : Option VoiceOutputConfig
  tts : Option VoiceOutputConfig
  cascade : Option VoiceAgentCascadeConfig
  avatar : Option Block
  params : Block
  turnWorkflowId : Option String
  finalWorkflowId : Option String
  extra : Block
  deriving DecidableEq

structure VoiceAgent where
  name : String
  description : Option String
  config : VoiceAgentConfig

structure CreateVoiceAgentRequest where
  projectId : String
  name : String
  description : Option String
  config : VoiceAgentConfig

structure VoiceAgentDraft where
  name : String
  description : String
  mode : VoiceAgentMode
  systemPrompt : String
  firstMessage : String
  language : String
  provider : String
  model : String
  voiceId : String
  knowledgeBaseIds : List String
  turnWorkflowId : String
  finalWorkflowId : String
  credentialId : Option String
  tts : Option VoiceOutputConfig
  avatar : Option Block
  params : Block
  cascade : VoiceAgentCascadeConfig
  extraConfig : Block
  ttsBeforeCascade : Option (Option VoiceOutputConfig × Option VoiceOutputConfig)

/-! ### From the agent to the draft -/

def defaultStt : Block :=
  Dict.ofList [("provider", .str "yandex"), ("model", .str "general"), ("credentialId", .null)]

def defaultTurn : Block :=
  Dict.ofList [("minSilenceMs", .int 200), ("maxSilenceMs", .int 1500), ("smartTurn", .bool true),
    ("smartTurnThreshold", .number (1 / 2)), ("prerollMs", .int 300), ("speculative", .bool true)]

def defaultBrain : Block :=
  Dict.ofList [("type", .str "prompt"), ("provider", .str "gemini"),
    ("model", .str "gemini-3.1-flash-lite"), ("credentialId", .null),
    ("params", .obj [("thinking_level", .str "minimal"), ("max_tokens", .int 300)]),
    ("historyTurns", .int 40)]

def defaultCascade : VoiceAgentCascadeConfig := ⟨defaultStt, defaultTurn, defaultBrain, Dict.empty⟩

def knownConfigKeys : List String :=
  ["instructions", "knowledgeBaseIds", "firstMessage", "language", "mode", "voice", "tts", "cascade",
    "avatar", "params", "turnWorkflowId", "finalWorkflowId"]

/-- `cascade.brain?.params ?? {}`. -/
def savedParams (brain : Block) : Json :=
  match brain.lookup "params" with
  | none => .obj []
  | some .null => .obj []
  | some params => params

def cascadeFromConfig : Option VoiceAgentCascadeConfig → VoiceAgentCascadeConfig
  | none => defaultCascade
  | some cascade =>
      { cascade with
        stt := defaultStt.merge cascade.stt
        turn := defaultTurn.merge cascade.turn
        brain := (defaultBrain.merge cascade.brain).set "params" (savedParams cascade.brain) }

/-- Content of the first instruction with the role `system`. -/
def systemPromptOf (instructions : List AgentInstruction) : String :=
  ((instructions.find? (fun instruction => instruction.role = "system")).map
    AgentInstruction.content).getD ""

def draftFromVoiceAgent (voiceAgent : VoiceAgent) : VoiceAgentDraft where
  name := voiceAgent.name
  description := voiceAgent.description.getD ""
  mode := voiceAgent.config.mode.getD .realtime
  systemPrompt := systemPromptOf voiceAgent.config.instructions
  firstMessage := voiceAgent.config.firstMessage.getD ""
  language := voiceAgent.config.language
  provider := (voiceAgent.config.voice.map VoiceOutputConfig.provider).getD ""
  model := (voiceAgent.config.voice.map VoiceOutputConfig.model).getD ""
  voiceId := (voiceAgent.config.voice.bind VoiceOutputConfig.voiceId).getD ""
  knowledgeBaseIds := voiceAgent.config.knowledgeBaseIds
  turnWorkflowId := voiceAgent.config.turnWorkflowId.getD ""
  finalWorkflowId := voiceAgent.config.finalWorkflowId.getD ""
  credentialId := voiceAgent.config.voice.bind VoiceOutputConfig.credentialId
  tts := voiceAgent.config.tts
  avatar := voiceAgent.config.avatar
  params := voiceAgent.config.params
  cascade := cascadeFromConfig voiceAgent.config.cascade
  extraConfig := voiceAgent.config.extra.restrict (fun key => key ∉ knownConfigKeys)
  ttsBeforeCascade := none

/-! ### From the draft to the request -/

/-- `text || null`. -/
def orNull (text : String) : Option String := if text = "" then none else some text

def toCreateRequest (draft : VoiceAgentDraft) (projectId : String) : CreateVoiceAgentRequest where
  projectId := projectId
  name := draft.name
  description := orNull draft.description
  config := {
    extra := draft.extraConfig
    mode := some draft.mode
    instructions := [⟨"system", draft.systemPrompt, Dict.empty⟩]
    knowledgeBaseIds := draft.knowledgeBaseIds
    firstMessage := orNull draft.firstMessage
    language := draft.language
    voice :=
      if draft.mode = .cascade then none
      else some {
        provider := draft.provider
        model := draft.model
        voiceId := orNull draft.voiceId
        credentialId := draft.credentialId
        realtime := false
        extra := Dict.empty }
    tts := draft.tts
    cascade := if draft.mode = .cascade then some draft.cascade else none
    avatar := draft.avatar
    params := draft.params
    turnWorkflowId := orNull draft.turnWorkflowId
    finalWorkflowId := orNull draft.finalWorkflowId }

/-! ### What the backend returns -/

structure Complete (cascade : VoiceAgentCascadeConfig) : Prop where
  stt : ∀ key ∈ defaultStt.keys, key ∈ cascade.stt.keys
  turn : ∀ key ∈ defaultTurn.keys, key ∈ cascade.turn.keys
  brain : ∀ key ∈ defaultBrain.keys, key ∈ cascade.brain.keys
  params : cascade.brain.lookup "params" ≠ some .null

/-- A configuration in the form of the response: the mode is given, the blocks match it, and what
is not declared stands apart. -/
structure Returned (config : VoiceAgentConfig) : Prop where
  instructed : config.instructions ≠ []
  mode : config.mode ≠ none
  realtime : config.mode = some .realtime → config.voice ≠ none ∧ config.cascade = none
  cascade : config.mode = some .cascade →
    (∃ cascade, config.cascade = some cascade ∧ Complete cascade) ∧ config.tts ≠ none
  unknown : ∀ key ∈ config.extra.keys, key ∉ knownConfigKeys

/-! ### The same agent -/

def SameBlock (left right : Block) : Prop := ∀ key, left.lookup key = right.lookup key

structure SameCascade (left right : VoiceAgentCascadeConfig) : Prop where
  stt : SameBlock left.stt right.stt
  turn : SameBlock left.turn right.turn
  brain : SameBlock left.brain right.brain
  extra : SameBlock left.extra right.extra

structure SameAgent (left right : VoiceAgentConfig) : Prop where
  mode : left.mode = right.mode
  voice : left.voice = right.voice
  tts : left.tts = right.tts
  cascade : Option.Rel SameCascade left.cascade right.cascade
  avatar : left.avatar = right.avatar
  instructions : left.instructions = right.instructions
  knowledgeBaseIds : left.knowledgeBaseIds = right.knowledgeBaseIds
  firstMessage : left.firstMessage = right.firstMessage
  language : left.language = right.language
  params : left.params = right.params
  turnWorkflowId : left.turnWorkflowId = right.turnWorkflowId
  finalWorkflowId : left.finalWorkflowId = right.finalWorkflowId
  extra : SameBlock left.extra right.extra

structure PlainVoice (voice : VoiceOutputConfig) : Prop where
  realtime : voice.realtime = false
  named : voice.voiceId ≠ some ""
  extra : voice.extra = Dict.empty

/-- A single system instruction, no empty texts, and a voice that the form holds, which a cascade
does not have. -/
structure FitsForm (config : VoiceAgentConfig) : Prop where
  instructions : ∃ content, config.instructions = [⟨"system", content, Dict.empty⟩]
  firstMessage : config.firstMessage ≠ some ""
  turnWorkflowId : config.turnWorkflowId ≠ some ""
  finalWorkflowId : config.finalWorkflowId ≠ some ""
  realtime : config.mode = some .realtime → ∀ voice ∈ config.voice, PlainVoice voice
  cascade : config.mode = some .cascade → config.voice = none

theorem orNull_getD (text : Option String) : orNull (text.getD "") = text ↔ text ≠ some "" := by
  cases text with
  | none => simp [orNull]
  | some text =>
      by_cases blank : text = "" <;> simp [orNull, blank]

theorem sameBlock_merge {defaults block : Block}
    (complete : ∀ key ∈ defaults.keys, key ∈ block.keys) : SameBlock (defaults.merge block) block := by
  intro key
  rw [Dict.lookup_merge]
  cases found : block.lookup key with
  | some value => rfl
  | none =>
      have absent : key ∉ defaults.keys :=
        fun member => (Dict.lookup_eq_none block key).mp found (complete key member)
      rw [(Dict.lookup_eq_none defaults key).mpr absent, Option.none_or]

theorem sameCascade_cascadeFromConfig {cascade : VoiceAgentCascadeConfig}
    (complete : Complete cascade) : SameCascade (cascadeFromConfig (some cascade)) cascade := by
  have merged := sameBlock_merge complete.brain
  refine ⟨sameBlock_merge complete.stt, sameBlock_merge complete.turn, fun key => ?_, fun _ => rfl⟩
  change ((defaultBrain.merge cascade.brain).set "params" (savedParams cascade.brain)).lookup key = _
  rw [Dict.lookup_set]
  split
  · rename_i params
    subst params
    have present := complete.brain "params" (by decide)
    obtain ⟨value, found⟩ := (Dict.mem_keys cascade.brain "params").mp present
    have filled := complete.params
    rw [found] at filled ⊢
    rw [savedParams, found]
    cases value with
    | null => exact absurd rfl filled
    | bool | int | number | str | arr | obj => rfl
  · exact merged key

theorem sameBlock_restrict {extra : Block} (unknown : ∀ key ∈ extra.keys, key ∉ knownConfigKeys) :
    extra.restrict (fun key => key ∉ knownConfigKeys) = extra := by
  apply Dict.ext_entries
  exact List.filter_eq_self.mpr (fun entry member =>
    decide_eq_true (unknown entry.1 (List.mem_map_of_mem member)))

theorem instructions_kept_iff (instructions : List AgentInstruction) :
    [(⟨"system", systemPromptOf instructions, Dict.empty⟩ : AgentInstruction)] = instructions ↔
      ∃ content, instructions = [⟨"system", content, Dict.empty⟩] := by
  constructor
  · exact fun same => ⟨systemPromptOf instructions, same.symm⟩
  · rintro ⟨content, rfl⟩
    rfl

def formVoice (voice : VoiceOutputConfig) : VoiceOutputConfig where
  provider := voice.provider
  model := voice.model
  voiceId := orNull (voice.voiceId.getD "")
  credentialId := voice.credentialId
  realtime := false
  extra := Dict.empty

theorem formVoice_iff (voice : VoiceOutputConfig) : formVoice voice = voice ↔ PlainVoice voice := by
  constructor
  · intro same
    refine ⟨?_, ?_, ?_⟩
    · rw [← same]
      rfl
    · exact (orNull_getD voice.voiceId).mp (congrArg VoiceOutputConfig.voiceId same)
    · rw [← same]
      rfl
  · intro plain
    have named := (orNull_getD voice.voiceId).mpr plain.named
    rw [formVoice, named, ← plain.realtime, ← plain.extra]

section Request

variable {voiceAgent : VoiceAgent} (projectId : String)

theorem request_shared (returned : Returned voiceAgent.config) {mode : VoiceAgentMode}
    (chosen : voiceAgent.config.mode = some mode) :
    let config := (toCreateRequest (draftFromVoiceAgent voiceAgent) projectId).config
    config.mode = voiceAgent.config.mode ∧
      Option.Rel SameCascade config.cascade voiceAgent.config.cascade ∧
      SameBlock config.extra voiceAgent.config.extra := by
  have drafted : (draftFromVoiceAgent voiceAgent).mode = mode := by
    change voiceAgent.config.mode.getD .realtime = mode
    rw [chosen, Option.getD_some]
  refine ⟨?_, ?_, ?_⟩
  · change some (draftFromVoiceAgent voiceAgent).mode = voiceAgent.config.mode
    rw [drafted, chosen]
  · change Option.Rel SameCascade (if (draftFromVoiceAgent voiceAgent).mode = .cascade then
      some (cascadeFromConfig voiceAgent.config.cascade) else none) voiceAgent.config.cascade
    rw [drafted]
    cases mode with
    | realtime =>
        rw [(returned.realtime chosen).2, if_neg (by decide)]
        exact .none
    | cascade =>
        obtain ⟨⟨cascade, held, complete⟩, -⟩ := returned.cascade chosen
        rw [held, if_pos rfl]
        exact .some (sameCascade_cascadeFromConfig complete)
  · change SameBlock (voiceAgent.config.extra.restrict (fun key => key ∉ knownConfigKeys)) _
    rw [sameBlock_restrict returned.unknown]
    exact fun _ => rfl

theorem request_voice_iff (returned : Returned voiceAgent.config) {mode : VoiceAgentMode}
    (chosen : voiceAgent.config.mode = some mode) :
    (toCreateRequest (draftFromVoiceAgent voiceAgent) projectId).config.voice =
        voiceAgent.config.voice ↔
      (mode = .realtime → ∀ voice ∈ voiceAgent.config.voice, PlainVoice voice) ∧
        (mode = .cascade → voiceAgent.config.voice = none) := by
  have drafted : (draftFromVoiceAgent voiceAgent).mode = mode := by
    change voiceAgent.config.mode.getD .realtime = mode
    rw [chosen, Option.getD_some]
  change (if (draftFromVoiceAgent voiceAgent).mode = .cascade then none else some _) = _ ↔ _
  rw [drafted]
  cases mode with
  | cascade => simp [eq_comm]
  | realtime =>
      obtain ⟨voice, held⟩ := Option.ne_none_iff_exists'.mp (returned.realtime chosen).1
      have voiced : some (formVoice voice) = some voice ↔ PlainVoice voice :=
        Option.some_inj.trans (formVoice_iff voice)
      rw [if_neg (by decide)]
      simp only [draftFromVoiceAgent, held, Option.map_some, Option.getD_some, Option.bind_some,
        Option.mem_some_iff, forall_eq', true_implies, reduceCtorEq, false_implies, and_true]
      exact voiced

/-- Opening a voice agent and saving it keeps it exactly if it fits the form. -/
theorem request_same_iff (returned : Returned voiceAgent.config) :
    SameAgent (toCreateRequest (draftFromVoiceAgent voiceAgent) projectId).config
        voiceAgent.config ↔ FitsForm voiceAgent.config := by
  obtain ⟨mode, chosen⟩ := Option.ne_none_iff_exists'.mp returned.mode
  obtain ⟨sameMode, cascade, extra⟩ := request_shared projectId returned chosen
  have voice := request_voice_iff projectId returned chosen
  constructor
  · intro same
    obtain ⟨realtime, cascaded⟩ := voice.mp same.voice
    refine ⟨(instructions_kept_iff _).mp same.instructions, (orNull_getD _).mp same.firstMessage,
      (orNull_getD _).mp same.turnWorkflowId, (orNull_getD _).mp same.finalWorkflowId, ?_, ?_⟩
    · exact fun equal => realtime (Option.some.inj (chosen.symm.trans equal))
    · exact fun equal => cascaded (Option.some.inj (chosen.symm.trans equal))
  · intro fits
    exact {
      mode := sameMode
      voice := voice.mpr ⟨fun equal => fits.realtime (equal ▸ chosen),
        fun equal => fits.cascade (equal ▸ chosen)⟩
      tts := rfl
      cascade := cascade
      avatar := rfl
      instructions := (instructions_kept_iff _).mpr fits.instructions
      knowledgeBaseIds := rfl
      firstMessage := (orNull_getD _).mpr fits.firstMessage
      language := rfl
      params := rfl
      turnWorkflowId := (orNull_getD _).mpr fits.turnWorkflowId
      finalWorkflowId := (orNull_getD _).mpr fits.finalWorkflowId
      extra := extra }

end Request

def receptionist (instructions : List AgentInstruction) : VoiceAgent where
  name := "Receptionist"
  description := none
  config := {
    instructions := instructions
    knowledgeBaseIds := ["kb-1"]
    firstMessage := some "Hello"
    language := "en"
    mode := some .realtime
    voice := some ⟨"openai", "gpt-realtime-2.1", some "alloy", none, false, Dict.empty⟩
    tts := none
    cascade := none
    avatar := none
    params := Dict.ofList [("vadSilenceMs", .int 500)]
    turnWorkflowId := none
    finalWorkflowId := none
    extra := Dict.ofList [("greeting", .bool true)] }

theorem receptionist_returned {instructions : List AgentInstruction} (some : instructions ≠ []) :
    Returned (receptionist instructions).config where
  instructed := some
  mode := Option.some_ne_none _
  realtime := fun _ => ⟨Option.some_ne_none _, rfl⟩
  cascade := fun equal => nomatch equal
  unknown := by
    change ∀ key ∈ ["greeting"], key ∉ knownConfigKeys
    decide

theorem receptionist_kept :
    SameAgent (toCreateRequest (draftFromVoiceAgent
        (receptionist [⟨"system", "You answer calls.", Dict.empty⟩])) "proj-1").config
      (receptionist [⟨"system", "You answer calls.", Dict.empty⟩]).config :=
  (request_same_iff "proj-1" (receptionist_returned (List.cons_ne_nil _ _))).mpr {
    instructions := ⟨_, rfl⟩
    firstMessage := by decide
    turnWorkflowId := by decide
    finalWorkflowId := by decide
    realtime := by
      intro _ voice held
      cases held
      exact ⟨rfl, by decide, rfl⟩
    cascade := fun equal => nomatch equal }

/-- The second instruction is not in the request. -/
theorem second_instruction_lost :
    ¬ SameAgent (toCreateRequest (draftFromVoiceAgent
        (receptionist [⟨"system", "You answer calls.", Dict.empty⟩,
          ⟨"user", "Speak slowly.", Dict.empty⟩])) "proj-1").config
      (receptionist [⟨"system", "You answer calls.", Dict.empty⟩,
        ⟨"user", "Speak slowly.", Dict.empty⟩]).config := by
  intro same
  have fewer := congrArg List.length same.instructions
  cases fewer

end Assemblix.VoiceAgentForm
