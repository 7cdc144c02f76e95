import ProviderOwned.Stage.Deferred
import ProviderOwned.Stage.Loop

/-!
# A step of loop mode

What one step of a worker that is all of a route commits is what plain decoding would have: the
guesses up to the first wrong one are its next tokens, and so is the sample there
(`acceptSpeculation_outputs`). The session is left with the committed text at its front (`Streams`),
whatever was guessed behind it.
-/

namespace ProviderOwned

open Decode (outputs outputs_succ_cons)

variable {H : Type*}

/-! ### The accepted guesses -/

/-- Of samples that are taken one after each guess, those are accepted that are decoded without
guesses. -/
lemma acceptSpeculation_outputs (next : List Token → Token) (text guesses : List Token) :
    ∃ n, acceptSpeculation guesses
        ((List.range (guesses.length + 1)).map fun i => next (text ++ guesses.take i)) =
          outputs next text (n + 1) ∧
      outputs next text n <+: guesses := by
  induction guesses generalizing text with
  | nil => exact ⟨0, by simp [acceptSpeculation, outputs], List.nil_prefix⟩
  | cons guess guesses ih =>
    have hsamples : (List.range ((guess :: guesses).length + 1)).map
        (fun i => next (text ++ (guess :: guesses).take i)) =
          next text :: (List.range (guesses.length + 1)).map
            fun i => next (text ++ [guess] ++ guesses.take i) := by
      rw [List.length_cons, List.range_succ_eq_map, List.map_cons, List.map_map, List.take_zero,
        List.append_nil]
      congr 1
      apply List.map_congr_left
      intro i _
      simp
    rw [hsamples, acceptSpeculation]
    by_cases hguess : guess = next text
    · obtain ⟨n, haccepted, hprefix⟩ := ih (text ++ [guess])
      refine ⟨n + 1, ?_, ?_⟩
      · rw [if_pos hguess, haccepted, hguess, ← outputs_succ_cons]
      · rw [outputs_succ_cons, ← hguess]
        exact (List.prefix_cons_inj guess).mpr hprefix
    · exact ⟨0, by rw [if_neg hguess, outputs_succ_cons, Decode.outputs_zero], List.nil_prefix⟩

/-! ### A session that streams -/

/-- A sampler that neither draws at random nor penalises picks the token that a verified batch has.
This is what llama.cpp's samplers do at temperature 0. -/
def StageModel.GreedyChats (m : StageModel H) : Prop :=
  ∀ sampler kv, sampler.sampling.speculative → m.chat sampler kv = m.greedy kv

namespace Session

variable {m : StageModel H} {s s' t : Session H} {f : Frame H} {request : Nat}
  {text more : List Token}
  {next : List Token → Token}

/-- The session is in the request, and `text` is at the front of what it holds. -/
structure Streams (request : Nat) (text : List Token) (s : Session H) : Prop where
  holds : s.Holds s.history
  text : text <+: s.history
  active : s.activeRequest = request
  nonzero : request ≠ 0
  prompted : s.hasPrompt = true

/-- The session of a last stage has a sampler in a chat, and only there. -/
structure Sampled (s : Session H) : Prop where
  chat : s.chatSampler.isSome = s.chatRequest
  speculative : ∀ sampler, s.chatSampler = some sampler →
    s.chatSpeculative = sampler.sampling.speculative

/-- Plain decoding after `text`: the token that the session samples when each token that it has
sampled since is fed back alone. -/
def decodes (m : StageModel H) (s : Session H) (text t : List Token) : Token :=
  s.chatSampler.elim (m.greedy (t.map .token)) fun sampler =>
    m.chat { sampler with accepted := sampler.accepted ++ t.drop text.length } (t.map .token)

/-- After `text` the session decodes as `next` does. -/
def Follows (m : StageModel H) (next : List Token → Token) (text : List Token) (s : Session H) :
    Prop :=
  ∀ more, next (text ++ more) = s.decodes m text (text ++ more)

/-- Guesses are verified where the sampler picks greedily. -/
def Verifies (s : Session H) : Prop := s.chatRequest = false ∨ s.chatSpeculative = true

lemma decodes_append (hsampler : s.chatSampler = none) :
    s.decodes m text (text ++ more) = m.greedy ((text ++ more).map .token) := by
  rw [decodes, hsampler]
  rfl

lemma decodes_append_chat {sampler : ChatSampler} (hsampler : s.chatSampler = some sampler) :
    s.decodes m text (text ++ more) =
      m.chat { sampler with accepted := sampler.accepted ++ more } ((text ++ more).map .token) := by
  rw [decodes, hsampler, List.drop_left]
  rfl

/-- Where guesses are verified, plain decoding is greedy. -/
lemma Sampled.decodes_eq_greedy (h : s.Sampled) (hv : s.Verifies) (hm : m.GreedyChats)
    (text more : List Token) :
    s.decodes m text (text ++ more) = m.greedy ((text ++ more).map .token) := by
  cases hsampler : s.chatSampler with
  | none => exact decodes_append hsampler
  | some sampler =>
    rw [decodes_append_chat hsampler]
    apply hm
    have hchat := h.chat
    rw [hsampler] at hchat
    rcases hv with hno | hspeculative
    · rw [← hchat] at hno
      cases hno
    · exact (h.speculative sampler hsampler).symm.trans hspeculative

lemma Follows.greedy (h : s.Follows m next text) (hs : s.Sampled) (hv : s.Verifies)
    (hm : m.GreedyChats)
    (more : List Token) : next (text ++ more) = m.greedy ((text ++ more).map .token) :=
  (h more).trans (hs.decodes_eq_greedy hv hm text more)

/-- Tokens that a batch adds do not reach the sampler, which is greedy there. -/
lemma Follows.extend (h : s.Follows m next text) (hs : s.Sampled) (hv : s.Verifies)
    (hm : m.GreedyChats) (more : List Token) : s.Follows m next (text ++ more) := by
  intro later
  rw [List.append_assoc, h.greedy hs hv hm, ← List.append_assoc, hs.decodes_eq_greedy hv hm]

lemma Follows.of_sampler (h : s.Follows m next text) (hsampler : t.chatSampler = s.chatSampler) :
    t.Follows m next text := by
  intro more
  rw [decodes, hsampler]
  exact h more

/-- The session samples the next token, and then follows on from it. -/
lemma Follows.sample (h : s.Follows m next text) (hkv : s.kv = text.map .token) :
    (s.sample m).1 = next text ∧ (s.sample m).2.Follows m next (text ++ [next text]) := by
  have hhere := h []
  rw [List.append_nil] at hhere
  cases hsampler : s.chatSampler with
  | none =>
    have hsample : s.sample m = (m.greedy s.kv, s) := by rw [Session.sample, hsampler]
    rw [hsample]
    refine ⟨?_, fun more => ?_⟩
    · rw [hhere, decodes, hsampler, hkv]
      rfl
    · rw [List.append_assoc, h, decodes_append hsampler, ← List.append_assoc,
        decodes_append hsampler]
  | some sampler =>
    have hnext : m.chat sampler s.kv = next text := by
      have hchat := (h []).trans (decodes_append_chat hsampler)
      simp only [List.append_nil] at hchat
      rw [hkv, hchat]
    have hpicked : (s.sample m).1 = next text ∧ (s.sample m).2.chatSampler =
        some { sampler with accepted := sampler.accepted ++ [next text] } := by
      rw [Session.sample, hsampler, ← hnext]
      exact ⟨rfl, rfl⟩
    refine ⟨hpicked.1, fun more => ?_⟩
    rw [decodes_append_chat hpicked.2, List.append_assoc, h, decodes_append_chat hsampler]
    simp only [List.append_assoc]

lemma Sampled.sample (h : s.Sampled) : (s.sample m).2.Sampled := by
  rw [Session.sample]
  cases hsampler : s.chatSampler with
  | none => exact h
  | some sampler =>
    refine ⟨?_, fun other hother => ?_⟩
    · rw [← h.chat, hsampler]
      rfl
    · cases hother
      exact h.speculative sampler hsampler

/-! ### A batch on a session that streams -/

/-- The session with other deferred inputs, and perhaps with its history cut for the n-gram
table. -/
def Redrafted (cut : Option Nat) (s s' : Session H) : Prop :=
  s' = { s with draft := s'.draft, history := s'.history } ∧
    (s'.history = s.history ∨ ∃ p ∈ cut, s'.history = s.history.take p)

def SamplesAs (s t : Session H) : Prop :=
  t.chatSampler = s.chatSampler ∧ t.chatRequest = s.chatRequest ∧
    t.chatSpeculative = s.chatSpeculative

lemma Sampled.of_samplesAs (h : s.Sampled) (ht : s.SamplesAs t) : t.Sampled := by
  obtain ⟨hsampler, hchat, hspeculative⟩ := ht
  refine ⟨?_, fun sampler hsome => ?_⟩
  · rw [hsampler, hchat]
    exact h.chat
  · rw [hspeculative]
    exact h.speculative sampler (hsampler.symm.trans hsome)

lemma Redrafted.samplesAs {cut : Option Nat} (h : s.Redrafted cut s') : s.SamplesAs s' := by
  rw [h.1]
  exact ⟨rfl, rfl, rfl⟩

lemma redrafted_draft (cut : Option Nat) (s : Session H) (d : DraftState) :
    s.Redrafted cut { s with draft := d } := ⟨rfl, .inl rfl⟩

lemma Redrafted.trans {cut : Option Nat} (h : s.Redrafted cut s') (h' : s'.Redrafted cut t) :
    s.Redrafted cut t := by
  obtain ⟨hfields, hhistory⟩ := h
  obtain ⟨hfields', hhistory'⟩ := h'
  refine ⟨?_, ?_⟩
  · rw [hfields', hfields]
  · rcases hhistory' with hsame' | ⟨p, hp, hcut'⟩
    · rw [hsame']
      exact hhistory
    · right
      refine ⟨p, hp, ?_⟩
      rcases hhistory with hsame | ⟨q, hq, hcut⟩
      · rw [hcut', hsame]
      · rw [hcut', hcut, List.take_take, Option.mem_unique hq hp, Nat.min_self]

lemma Streams.take_history (h : s.Streams request text) : s.history.take text.length = text :=
  (List.prefix_iff_eq_take.mp h.text).symm

/-- A frame at the end of the text takes the session back to it. -/
lemma Streams.entered (h : s.Streams request text) (hfirst : m.first)
    (hs' : s.Redrafted (some text.length) s')
    (hrequest : f.request = request) (hposition : f.position = text.length)
    (htype : f.type = .token) (hrows : f.rows ≠ 0 → s.Verifies) :
    ∃ t, s'.enter m f = .ok t ∧ t.Holds text ∧ t.hasPrompt = true ∧ t.activeRequest = request ∧
      s.SamplesAs t := by
  obtain ⟨hfields, hhistory⟩ := hs'
  have hkv : s'.kv = s.history.map .token := by
    rw [hfields]
    exact h.holds.kv
  have hlength : s'.position = s.history.length := by
    rw [hfields]
    exact h.holds.position
  have hactive : s'.activeRequest = request := by
    rw [hfields]
    exact h.active
  have hadmits : s'.Admits f := by
    refine ⟨hrequest.symm ▸ h.nonzero, ?_, fun hidle => ?_, fun _ => hactive.trans hrequest.symm⟩
    · rintro ⟨hchat, hnot, hkind⟩
      have hwide : f.rows ≠ 0 := by
        rcases hkind with hkind | hkind
        · rw [htype] at hkind
          cases hkind
        · exact hkind.2
      rw [hfields] at hchat hnot
      rcases hrows hwide with hv | hv
      · exact absurd (hv.symm.trans hchat) (by decide)
      · change (!s.chatSpeculative) = true at hnot
        rw [hv] at hnot
        cases hnot
    · exact absurd (hactive.symm.trans hidle) h.nonzero
  have htext : s'.history.take text.length = text := by
    rcases hhistory with hsame | ⟨p, hp, hcut⟩
    · rw [hsame, h.take_history]
    · cases hp
      rw [hcut, List.take_take, Nat.min_self, h.take_history]
  have hle : text.length ≤ s.history.length := h.text.length_le
  refine ⟨s'.entered m f, enter_of_admits hadmits, ?_⟩
  rw [Session.entered, Session.rewind, hposition]
  split_ifs with hlow
  · refine ⟨⟨?_, ?_, rfl⟩, ?_, hrequest, ?_⟩
    · rw [Session.truncate, if_pos hfirst]
      exact htext
    · change s'.kv.take text.length = _
      rw [hkv, ← List.map_take, h.take_history]
    · rw [hfields]
      exact h.prompted
    · rw [hfields]
      exact ⟨rfl, rfl, rfl⟩
  · have hsame : s.history = text := by
      have hshort : s.history.length ≤ text.length := by
        rw [← hlength]
        exact Nat.le_of_not_lt hlow
      rw [← h.take_history, List.take_of_length_le hshort]
    refine ⟨⟨?_, ?_, ?_⟩, ?_, hrequest, ?_⟩
    · change s'.history = text
      rcases hhistory with heq | ⟨p, hp, hcut⟩
      · rw [heq, hsame]
      · cases hp
        rw [hcut, h.take_history]
    · change s'.kv = _
      rw [hkv, hsame]
    · change s'.position = _
      rw [hlength, hsame]
    · rw [hfields]
      exact h.prompted
    · rw [hfields]
      exact ⟨rfl, rfl, rfl⟩

lemma isSpeculative_tokenFrame {like : Frame H} {position : Nat} {tokens : List Token} :
    isSpeculative (tokenFrame like position tokens) = decide (1 < tokens.length) := by
  rw [isSpeculative, tokenFrame]
  split_ifs with hmany
  · simp only [decide_true, Bool.true_and, hmany]
    exact decide_eq_true (by omega)
  · simp only [decide_true, Bool.true_and, hmany]
    rfl

/-- A batch at the end of the text is refused there, or decoded. -/
lemma Streams.execute_tokens (h : s.Streams request text) (hfirst : m.first)
    (hs' : s.Redrafted (some text.length) s') {like : Frame H} (hrequest : like.request = request)
    {tokens : List Token} (htokens : tokens ≠ []) (hverifies : 1 < tokens.length → s.Verifies)
    (ok : Nat → Bool) :
    ∃ t, t.Holds text ∧ t.hasPrompt = true ∧ t.activeRequest = request ∧ s.SamplesAs t ∧
      ((∃ e, s'.execute m (tokenFrame like text.length tokens) 0 ok = t.throw e) ∨
        s'.execute m (tokenFrame like text.length tokens) 0 ok =
          t.finalBatch m (tokenFrame like text.length tokens) tokens true []) := by
  have hrows : (tokenFrame like text.length tokens).rows ≠ 0 → s.Verifies := by
    intro hwide
    apply hverifies
    by_contra hnarrow
    exact hwide (if_neg hnarrow)
  obtain ⟨t, henter, hholds, hprompted, hactive, hsamples⟩ :=
    h.entered (f := tokenFrame like text.length tokens) hfirst hs' hrequest rfl rfl hrows
  refine ⟨t, hholds, hprompted, hactive, hsamples, ?_⟩
  have hids : (tokenFrame like text.length tokens).payload.tokenIds
      (if isSpeculative (tokenFrame like text.length tokens) then
        (tokenFrame like text.length tokens).rows else 1) = some tokens := by
    have hpos := List.length_pos_iff.mpr htokens
    rw [isSpeculative_tokenFrame]
    simp only [tokenFrame, Payload.tokenIds, decide_eq_true_eq]
    by_cases hmany : 1 < tokens.length
    · simp only [hmany, if_true]
    · have hone : tokens.length = 1 := by omega
      simp only [hone, lt_irrefl, if_false, if_true]
  have hgood : ¬ ((tokenFrame like text.length tokens).position ≠ t.position ∨
      (!isSpeculative (tokenFrame like text.length tokens) ∧
        (tokenFrame like text.length tokens).rows ≠ 0) ∨
      (tokenFrame like text.length tokens).cols ≠ 0 ∨
          (tokenFrame like text.length tokens).dtype ≠ .none) := by
    rw [isSpeculative_tokenFrame, hholds.position]
    rintro (hposition | ⟨hnot, hwide⟩ | hcols | hdtype)
    · exact hposition rfl
    · rw [Bool.not_eq_true', decide_eq_false_iff_not] at hnot
      exact hwide (if_neg hnot)
    · exact hcols rfl
    · exact hdtype rfl
  have hkind : (tokenFrame like text.length tokens).type = .token := rfl
  rw [Session.execute, henter]
  simp only [hfirst, if_true]
  rw [runFirst, hkind]
  split_ifs with hwidth hprompt
  · exact .inl ⟨_, rfl⟩
  · cases hprompt
  · rw [runToken, hids]
    simp only [if_neg hgood, hprompted, Bool.not_true, Bool.false_eq_true, if_false]
    rw [runTokens]
    split_ifs
    · exact .inl ⟨_, rfl⟩
    · rw [prefill, if_neg (by rw [hkind]; simp)]
      dsimp only
      cases ok 0 with
      | false => exact .inl ⟨_, rfl⟩
      | true => exact .inr rfl
  · rename_i hneither
    exact absurd (.inl rfl) hneither

lemma execute_chatSpeculative {chunk : Nat} {ok : Nat → Bool} :
    (s.execute m f chunk ok).session.chatSpeculative = s.chatSpeculative := by
  rcases s.execute_cases m f chunk ok with ⟨e, -, hrefused⟩ | ⟨t, henter, hfixed⟩
  · rw [hrefused, throw_session]
  · exact congrArg (·.2.2.2.2.2) (hfixed.trans (enter_fixed henter).1)

/-- The session has decoded `k` tokens after `text`, and sampled one more that it has not been fed
yet. -/
structure Decoding (m : StageModel H) (request : Nat) (next : List Token → Token)
    (text : List Token) (k : Nat)
    (s : Session H) : Prop where
  streams : s.Streams request (text ++ outputs next text k)
  follows : s.Follows m next (text ++ outputs next text (k + 1))
  sampled : s.Sampled

/-- What holds of a session of a whole model between the frames. -/
structure Sound (s : Session H) : Prop where
  holds : s.Holds s.history
  sampled : s.Sampled

/-- The token with this number of those decoded after `text`. -/
def tokenAt (next : List Token → Token) (text : List Token) (k : Nat) : Token :=
  next (text ++ outputs next text k)

lemma outputs_tokenAt (next : List Token → Token) (text : List Token) (k : Nat) :
    text ++ outputs next text (k + 1) = (text ++ outputs next text k) ++ [tokenAt next text k] := by
  rw [Decode.outputs_succ, List.append_assoc, tokenAt]

lemma length_append_outputs (next : List Token → Token) (text : List Token) (k : Nat) :
    (text ++ outputs next text k).length = text.length + k := by
  rw [List.length_append, Decode.length_outputs]

section step

variable {k : Nat} {like : Frame H} (h : s.Decoding m request next text k) (hfirst : m.first)
  (hlast : m.last)
  (hs' : s.Redrafted (some (text.length + k)) s') (hrequest : like.request = request)
    (ok : Nat → Bool)
include h hfirst hlast hs' hrequest

/-- The pending token is fed back alone: the next one is sampled. -/
lemma Decoding.execute_token :
    (∃ e, (s'.execute m (tokenFrame like (text.length + k) [tokenAt next text k]) 0 ok).reply =
      .error e ∧
      (s'.execute m (tokenFrame like (text.length + k) [tokenAt next text k]) 0 ok).session.Sound) ∨
    (s'.execute m (tokenFrame like (text.length + k) [tokenAt next text k]) 0 ok).reply =
        .ok (streamedFrame m like (text.length + k + 1) (tokenAt next text (k + 1))) ∧
      (s'.execute m (tokenFrame like (text.length + k) [tokenAt next text k]) 0 ok).session.Decoding
        m request next text (k + 1) := by
  rw [← length_append_outputs next text k] at hs' ⊢
  obtain ⟨t, hholds, hprompted, hactive, hsamples, ⟨e, heq⟩ | heq⟩ :=
    h.streams.execute_tokens hfirst hs' hrequest (List.cons_ne_nil (tokenAt next text k) [])
      (fun hmany => absurd hmany (by simp)) ok
  · rw [heq]
    exact .inl ⟨e, rfl, hholds.self, h.sampled.of_samplesAs hsamples⟩
  · right
    have happend := hholds.appendTokens [tokenAt next text k]
    rw [← outputs_tokenAt] at happend
    have hfollows :
        (t.appendTokens [tokenAt next text k]).Follows m next (text ++ outputs next text (k + 1)) :=
      h.follows.of_sampler hsamples.1
    obtain ⟨htoken, hafter⟩ := hfollows.sample happend.kv
    have hresult : t.finalBatch m (tokenFrame like (text ++ outputs next text k).length
        [tokenAt next text k]) [tokenAt next text k] true [] =
          (t.appendTokens [tokenAt next text k]).sampleResult m
            (tokenFrame like (text ++ outputs next text k).length [tokenAt next text k]) := by
      have hkind :
          (tokenFrame like (text ++ outputs next text k).length [tokenAt next text k]).type ≠
          .commitToken := by
        rintro ⟨⟩
      rw [finalBatch, if_neg (by decide), if_pos hlast, if_neg hkind, isSpeculative_tokenFrame]
      rfl
    have hsampled : (t.appendTokens [tokenAt next text k]).Sampled :=
      h.sampled.of_samplesAs hsamples
    rw [heq, hresult, sampleResult]
    refine ⟨?_, ?_⟩
    · have hposition := happend.position
      rw [length_append_outputs] at hposition
      rw [answer, htoken, hposition, length_append_outputs]
      rfl
    · have hstream := happend.sample (m := m)
      refine ⟨⟨hstream.self, ?_, ?_, h.streams.nonzero, ?_⟩, ?_, hsampled.sample⟩
      · exact ⟨[], by rw [List.append_nil, answer_session, hstream.history]⟩
      · exact (congrArg (·.2.1) ((t.appendTokens [tokenAt next text k]).sample_fixed m)).trans
          hactive
      · exact (sample_hasPrompt _).trans hprompted
      · have hnext : next (text ++ outputs next text (k + 1)) = tokenAt next text (k + 1) := rfl
        rw [hnext, ← outputs_tokenAt] at hafter
        exact hafter

/-- The pending token is fed back with guesses behind it: of the samples those are accepted that
plain decoding has. -/
lemma Decoding.execute_batch (hm : m.GreedyChats) (hv : s.Verifies) {guesses : List Token}
    (hguesses : guesses ≠ []) :
    (∃ e,
      (s'.execute m
        (tokenFrame like (text.length + k) (tokenAt next text k :: guesses)) 0 ok).reply =
          .error e ∧
      (s'.execute m
        (tokenFrame like (text.length + k) (tokenAt next text k :: guesses)) 0 ok).session.Sound) ∨
    ∃ out samples n,
      (s'.execute m
        (tokenFrame like (text.length + k) (tokenAt next text k :: guesses)) 0 ok).reply = .ok out ∧
      out.type = .result ∧ out.payload = .verified samples ∧
      acceptSpeculation guesses samples = outputs next (text ++ outputs next text (k + 1)) (n + 1) ∧
      (s'.execute m
        (tokenFrame like (text.length + k) (tokenAt next text k :: guesses)) 0 ok).session.Decoding
          m request next text (k + 1 + n) := by
  have hmany : 1 < (tokenAt next text k :: guesses).length := by
    have := List.length_pos_iff.mpr hguesses
    rw [List.length_cons]
    omega
  have hbatch : (text ++ outputs next text k) ++ tokenAt next text k :: guesses =
      (text ++ outputs next text (k + 1)) ++ guesses := by
    rw [outputs_tokenAt, List.append_assoc, List.append_assoc, List.singleton_append,
      List.append_assoc]
  rw [← length_append_outputs next text k] at hs' ⊢
  obtain ⟨t, hholds, hprompted, hactive, hsamples, ⟨e, heq⟩ | heq⟩ :=
    h.streams.execute_tokens hfirst hs' hrequest (List.cons_ne_nil (tokenAt next text k) guesses)
      (fun _ => hv) ok
  · rw [heq]
    exact .inl ⟨e, rfl, hholds.self, h.sampled.of_samplesAs hsamples⟩
  · right
    have happend := hholds.appendTokens (tokenAt next text k :: guesses)
    have hsamplesOf : samplesOf m t.kv ((tokenAt next text k :: guesses).map .token) =
        (List.range (guesses.length + 1)).map
          fun i => next ((text ++ outputs next text (k + 1)) ++ guesses.take i) := by
      rw [samplesOf, List.length_map, List.length_cons]
      apply List.map_congr_left
      intro i _
      rw [h.follows.greedy h.sampled hv hm, hholds.kv, ← List.map_take, ← List.map_append,
        List.take_succ_cons]
      congr 2
      rw [outputs_tokenAt, List.append_assoc, List.append_assoc, List.singleton_append,
        List.append_assoc]
    obtain ⟨n, haccepted, hprefix⟩ :=
      acceptSpeculation_outputs next (text ++ outputs next text (k + 1)) guesses
    have hresult : t.finalBatch m (tokenFrame like (text ++ outputs next text k).length
        (tokenAt next text k :: guesses)) (tokenAt next text k :: guesses) true [] =
          (t.appendTokens (tokenAt next text k :: guesses)).answer
            ((t.appendTokens (tokenAt next text k :: guesses)).verifiedResult
              (tokenFrame like (text ++ outputs next text k).length
                (tokenAt next text k :: guesses))
              (samplesOf m t.kv ((tokenAt next text k :: guesses).map .token))) := by
      have hkind : (tokenFrame like (text ++ outputs next text k).length
          (tokenAt next text k :: guesses)).type ≠ .commitToken := by
        rintro ⟨⟩
      rw [finalBatch, if_neg (by decide), if_pos hlast, if_neg hkind, isSpeculative_tokenFrame,
        if_pos (decide_eq_true hmany)]
    have hmore : text ++ outputs next text (k + 1 + n) =
        (text ++ outputs next text (k + 1)) ++ outputs next
            (text ++ outputs next text (k + 1)) n := by
      rw [Decode.outputs_add, List.append_assoc]
    have hmost : text ++ outputs next text (k + 1 + n + 1) =
        (text ++ outputs next text (k + 1)) ++ outputs next (text ++ outputs next text (k + 1))
            (n + 1) := by
      rw [Nat.add_assoc (k + 1), Decode.outputs_add, List.append_assoc]
    rw [heq, hresult]
    refine ⟨_, _, n, rfl, rfl, rfl, by rw [hsamplesOf, haccepted], ?_⟩
    refine ⟨⟨happend.self, ?_, hactive, h.streams.nonzero, hprompted⟩, ?_,
      h.sampled.of_samplesAs hsamples⟩
    · rw [answer_session, happend.history, hbatch, hmore]
      exact (List.prefix_append_right_inj _).mpr hprefix
    · rw [hmost]
      exact (h.follows.extend h.sampled hv hm _).of_sampler hsamples.1

end step

/-! ### Any frame -/

lemma enter_samplesAs (henter : s.enter m f = .ok t) : s.SamplesAs t := by
  rw [enter] at henter
  split_ifs at henter
  cases henter
  rw [Session.rewind]
  split_ifs
  · exact ⟨rfl, rfl, rfl⟩
  · exact ⟨rfl, rfl, rfl⟩

/-- The sessions hold the same and are in the same request. -/
def SameText (s t : Session H) : Prop :=
  t.history = s.history ∧ t.kv = s.kv ∧ t.position = s.position ∧ t.activeRequest = s.activeRequest

lemma Holds.of_sameText (h : s.Holds text) (ht : s.SameText t) : t.Holds text :=
  ⟨ht.1.trans h.history, ht.2.1.trans h.kv, ht.2.2.1.trans h.position⟩

lemma runTokens_whole (hlast : m.last) (s : Session H) (f : Frame H) (tokens : List Token)
    (chunk : Nat) (ok : Nat → Bool) :
    (∃ e, s.runTokens m f tokens chunk ok = s.throw e) ∨
      s.runTokens m f tokens chunk ok = s.finalBatch m f tokens true [] := by
  rw [runTokens]
  split_ifs
  · exact .inl ⟨_, rfl⟩
  · rw [prefill, if_neg (by rw [hlast]; simp)]
    dsimp only
    cases ok 0 with
    | false => exact .inl ⟨_, rfl⟩
    | true => exact .inr rfl

/-- What a frame that is let in comes to at a stage that is the whole model. -/
lemma runFirst_whole (hlast : m.last) (s : Session H) (f : Frame H) (chunk : Nat)
    (ok : Nat → Bool) :
    ∃ t, s.SamplesAs t ∧ s.SameText t ∧ ((∃ e, s.runFirst m f chunk ok = t.throw e) ∨
      t.hasPrompt = true ∧ (f.type = .prompt ∨ f.type = .token ∨ f.type = .commitToken) ∧
        ∃ tokens, (f.type = .prompt → tokens = brought m s f) ∧
          s.runFirst m f chunk ok = t.finalBatch m f tokens true []) := by
  have hsame : s.SamplesAs s ∧ s.SameText s := ⟨⟨rfl, rfl, rfl⟩, rfl, rfl, rfl, rfl⟩
  rw [runFirst]
  split_ifs with hwide hprompt htoken
  · exact ⟨s, hsame.1, hsame.2, .inl ⟨_, rfl⟩⟩
  · rw [runPrompt]
    split_ifs with hbad hagain hpending hempty
    · exact ⟨s, hsame.1, hsame.2, .inl ⟨_, rfl⟩⟩
    · exact ⟨s, hsame.1, hsame.2, .inl ⟨_, rfl⟩⟩
    · refine ⟨{ s with hasPrompt := true, chatTokens := [], chatPending := false }, ⟨rfl, rfl, rfl⟩,
        ⟨rfl, rfl, rfl, rfl⟩, (runTokens_whole hlast _ f s.chatTokens chunk ok).imp_right
          fun heq => ?_⟩
      refine ⟨rfl, .inl hprompt, s.chatTokens, fun _ => ?_, heq⟩
      rw [brought, if_pos hprompt, if_pos hpending]
    · exact ⟨{ s with hasPrompt := true }, ⟨rfl, rfl, rfl⟩, ⟨rfl, rfl, rfl, rfl⟩, .inl ⟨_, rfl⟩⟩
    · refine ⟨{ s with hasPrompt := true }, ⟨rfl, rfl, rfl⟩, ⟨rfl, rfl, rfl, rfl⟩,
        (runTokens_whole hlast _ f _ chunk ok).imp_right fun heq => ?_⟩
      refine ⟨rfl, .inl hprompt, _, fun _ => ?_, heq⟩
      rw [brought, if_pos hprompt, if_neg hpending]
  · rw [runToken]
    split
    · exact ⟨s, hsame.1, hsame.2, .inl ⟨_, rfl⟩⟩
    · rename_i tokens _
      split_ifs with hbad hprompted
      · exact ⟨s, hsame.1, hsame.2, .inl ⟨_, rfl⟩⟩
      · exact ⟨s, hsame.1, hsame.2, .inl ⟨_, rfl⟩⟩
      · rw [Bool.not_eq_true', Bool.not_eq_false] at hprompted
        refine ⟨s, hsame.1, hsame.2, (runTokens_whole hlast s f tokens chunk ok).imp_right
          fun heq => ?_⟩
        exact ⟨hprompted, .inr htoken, tokens, fun h => absurd h hprompt, heq⟩
  · exact ⟨s, hsame.1, hsame.2, .inl ⟨_, rfl⟩⟩

lemma Sampled.finalBatch (h : s.Sampled) (tokens : List Token) (decoded : Bool)
    (out : List (Frame H)) :
    (s.finalBatch m f tokens decoded out).session.Sampled := by
  have happend : (s.appendTokens tokens).Sampled := ⟨h.chat, h.speculative⟩
  rw [Session.finalBatch]
  split_ifs
  · exact h
  · exact happend
  · exact happend
  · exact happend.sample
  all_goals exact happend

/-- A frame leaves a sampler where there was one. -/
lemma Sampled.execute (h : s.Sampled) (hfirst : m.first) (hlast : m.last) (chunk : Nat)
    (ok : Nat → Bool) :
    (s.execute m f chunk ok).session.Sampled := by
  rw [Session.execute]
  cases henter : s.enter m f with
  | error e => exact h
  | ok t =>
    have ht := h.of_samplesAs (enter_samplesAs henter)
    dsimp only
    rw [if_pos hfirst]
    obtain ⟨t', hsamples, -, ⟨e, heq⟩ | ⟨-, -, tokens, -, heq⟩⟩ := t.runFirst_whole hlast f chunk ok
    · rw [heq]
      exact ht.of_samplesAs hsamples
    · rw [heq]
      exact (ht.of_samplesAs hsamples).finalBatch tokens true []

lemma Sound.execute (h : s.Sound) (hfirst : m.first) (hlast : m.last) (chunk : Nat)
    (ok : Nat → Bool) :
    (s.execute m f chunk ok).session.Sound := by
  refine ⟨?_, h.sampled.execute hfirst hlast chunk ok⟩
  cases hreply : (s.execute m f chunk ok).reply with
  | ok out => exact (execute_accepted h.holds hfirst hreply).1.holds.self
  | error e =>
    rcases execute_refused h.holds hfirst hreply with hsame | ⟨hrefused, -⟩
    · rw [hsame]
      exact h.holds
    · obtain ⟨l, hl, -⟩ := hrefused.holds
      exact hl.self

/-- A prompt that is answered: the first token is sampled after the text that the session then
holds. -/
lemma Sound.execute_prompt (h : s.Sound) (hfirst : m.first) (hlast : m.last)
    (hprompt : f.type = .prompt) {chunk : Nat} {ok : Nat → Bool} {out : Frame H}
    (hout : (s.execute m f chunk ok).reply = .ok out)
    (htext : text = s.history.take f.position ++ brought m s f) :
    out = streamedFrame m f text.length (tokenAt (s.decodes m text) text 0) ∧
      (s.execute m f chunk ok).session.Decoding m f.request (s.decodes m text) text 0 := by
  obtain ⟨haccepted, hfixed, hnonzero, -⟩ := execute_accepted h.holds hfirst hout
  have hsound := h.execute (f := f) hfirst hlast chunk ok
  have hholds := haccepted.holds
  rw [← htext] at hholds
  rw [Session.execute] at hout hholds hsound haccepted hfixed ⊢
  cases henter : s.enter m f with
  | error e =>
    rw [henter] at hout
    cases hout
  | ok t =>
    simp only [henter, if_pos hfirst] at hout hholds hsound haccepted hfixed ⊢
    obtain ⟨hback, -, hpending, htokens, -⟩ := enter_holds h.holds hfirst henter
    obtain ⟨t', hsamples, hsame, ⟨e, heq⟩ | ⟨-, -, tokens, hbrought, heq⟩⟩ :=
      t.runFirst_whole hlast f chunk ok
    · rw [heq] at hout
      cases hout
    have hcontrol : f.type ≠ .commitToken := by rw [hprompt]; decide
    have hplain : ¬ isSpeculative f = true := by rw [isSpeculative, hprompt]; simp
    have hresult : t'.finalBatch m f tokens true [] =
        (t'.appendTokens tokens).sampleResult m f := by
      rw [Session.finalBatch, if_neg (by decide), if_pos hlast, if_neg hcontrol, if_neg hplain]
      rfl
    have hall : (t'.appendTokens tokens).Holds text := by
      have hbroughts : brought m t f = brought m s f := by rw [brought, brought, hpending, htokens]
      rw [htext, ← hbroughts, ← hbrought hprompt]
      exact (hback.of_sameText hsame).appendTokens tokens
    have hfollows : (t'.appendTokens tokens).Follows m (s.decodes m text) text := by
      have hself : s.Follows m (s.decodes m text) text := fun _ => rfl
      exact (hself.of_sampler (enter_samplesAs henter).1).of_sampler hsamples.1
    obtain ⟨htoken, hafter⟩ := hfollows.sample hall.kv
    rw [heq, hresult] at hout hholds hsound haccepted hfixed ⊢
    have hnone : text ++ outputs (s.decodes m text) text 0 = text := List.append_nil text
    constructor
    · rw [sampleResult, answer] at hout
      cases hout
      rw [htoken, hall.position, tokenAt, hnone]
      rfl
    · refine ⟨⟨hsound.holds, ?_, congrArg (·.2.1) hfixed, hnonzero, haccepted.prompted⟩, ?_,
        hsound.sampled⟩
      · exact ⟨[], by rw [List.append_nil, hnone, hholds.history]⟩
      · rw [outputs_tokenAt, hnone, tokenAt, hnone]
        exact hafter

end Session

end ProviderOwned
