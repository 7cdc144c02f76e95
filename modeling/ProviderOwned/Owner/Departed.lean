import ProviderOwned.Owner.Accounts

/-!
# Clients that leave

The last job of a client that left is its cleanup, after which its sessions are those of the
requests that run (`Queue`).
-/

namespace ProviderOwned.Owner.State

variable {limit : Nat} {g g' : State}

/-- The jobs of a link that are at hand or queued, in order. -/
def work (g : State) (l : Nat) : List Job := (g.main.job.toList ++ g.jobs).filter (·.link = l)

/-- The last job of a client that left is its cleanup, and once that was executed its sessions are
all busy. -/
structure Queue (g : State) : Prop where
  gone : ∀ (l : Nat) (link : Link), g.links[l]? = some link →
    link.reader = .leaving ∨ link.reader = .left → link.gone
  pushing : ∀ (l : Nat) (link : Link) (job : Job), g.links[l]? = some link →
    link.reader = .pushing job → job.link = l
  last : ∀ (l : Nat) (link : Link), g.links[l]? = some link → link.reader = .left → g.main.working →
    ∀ job ∈ (g.work l).getLast?, job.kind = .cleanup
  idle : ∀ (l : Nat) (link : Link), g.links[l]? = some link → link.reader = .left → g.main.working →
    g.work l = [] → ∀ s ∈ g.sessions, s.link = l → s.busy

lemma Queue.congr (h : g.Queue) (hlinks : g'.links = g.links) (hjobs : g'.jobs = g.jobs)
    (hmain : g'.main = g.main) (hsessions : g'.sessions = g.sessions) : g'.Queue := by
  obtain ⟨hgone, hpushing, hlast, hidle⟩ := h
  constructor <;> simpa only [work, hlinks, hjobs, hmain, hsessions]

@[simp]
lemma post_queue {link session : Nat} {reply : Reply} :
    (g.post link session reply).Queue ↔ g.Queue := by
  unfold post
  split_ifs
  · exact ⟨fun h => h.congr rfl rfl rfl rfl, fun h => h.congr rfl rfl rfl rfl⟩
  · rfl

lemma gone_eq (h : g.Queue) {l : Nat} {link : Link} (hlink : g.links[l]? = some link)
    (hleft : link.reader = .left) : g.gone l = true := by
  simp [State.gone, hlink, h.gone l link hlink (.inr hleft)]

/-- Threads go on, and jobs that are no cleanup come to an end. -/
lemma Queue.goOn (h : g.Queue) (hlinks : g'.links = g.links)
    (hworking : g'.main.working → g.main.working)
    (hwork : ∀ l, g'.work l = g.work l ∨ ∃ job, job.kind ≠ .cleanup ∧ g.work l = job :: g'.work l)
    (hsessions : ∀ s ∈ g'.sessions, g.work s.link ≠ [] ∨ g.gone s.link = false ∨
      ∃ s₀ ∈ g.sessions, s₀.link = s.link ∧ (s₀.busy → s.busy)) : g'.Queue := by
  constructor
  · exact hlinks ▸ h.gone
  · exact hlinks ▸ h.pushing
  · intro l link hlink hleft hw job hjob
    rw [hlinks] at hlink
    have hold := h.last l link hlink hleft (hworking hw)
    rcases hwork l with heq | ⟨first, -, heq⟩
    · exact hold job (heq ▸ hjob)
    · refine hold job ?_
      rw [heq, List.getLast?_cons, hjob]
      rfl
  · intro l link hlink hleft hw hnil s hs hl
    rw [hlinks] at hlink
    have hold := h.last l link hlink hleft (hworking hw)
    have hempty : g.work l = [] := by
      rcases hwork l with heq | ⟨first, hfirst, heq⟩
      · exact heq ▸ hnil
      · rw [heq, hnil] at hold
        exact absurd (hold first rfl) hfirst
    subst hl
    rcases hsessions s hs with hne | hgone | ⟨s₀, hs₀, hlink₀, hbusy⟩
    · exact absurd hempty hne
    · rw [gone_eq h hlink hleft] at hgone
      contradiction
    · exact hbusy (h.idle _ link hlink hleft (hworking hw) hempty s₀ hs₀ hlink₀)

/-- The job at hand comes to an end. -/
lemma work_of_ended {job : Job} (hjob : g.main.job = some job) (hnone : g'.main.job = none)
    (hjobs : g'.jobs = g.jobs) (hkind : job.kind ≠ .cleanup) (l : Nat) :
    g'.work l = g.work l ∨ ∃ job, job.kind ≠ .cleanup ∧ g.work l = job :: g'.work l := by
  simp only [work, hjob, hnone, hjobs, Option.toList_some, Option.toList_none, List.nil_append,
    List.singleton_append]
  by_cases hl : job.link = l
  · exact .inr ⟨job, hkind, by simp [hl]⟩
  · exact .inl (by simp [hl])

lemma work_of_same (hjob : g'.main.job = g.main.job) (hjobs : g'.jobs = g.jobs) (l : Nat) :
    g'.work l = g.work l ∨ ∃ job, job.kind ≠ .cleanup ∧ g.work l = job :: g'.work l := by
  simp [work, hjob, hjobs]

/-- A link changes. -/
lemma Queue.modifyLink {f : Link → Link} {l : Nat} (h : g.Queue)
    (hgone : ∀ link, g.links[l]? = some link →
      (f link).reader = .leaving ∨ (f link).reader = .left → (f link).gone)
    (hpushing : ∀ link job, g.links[l]? = some link → (f link).reader = .pushing job → job.link = l)
    (hleft : ∀ link, g.links[l]? = some link → (f link).reader = .left → link.reader = .left) :
    (g.modifyLink l f).Queue := by
  have hback : ∀ {l' : Nat} {link' : Link}, (g.modifyLink l f).links[l']? = some link' →
      g.links[l']? = some link' ∨ ∃ link, l' = l ∧ g.links[l]? = some link ∧ link' = f link := by
    intro l' link' hlink'
    simp only [State.modifyLink, List.getElem?_modify] at hlink'
    by_cases hl : l = l'
    · subst hl
      obtain ⟨link, hlink, heq⟩ := Option.map_eq_some_iff.mp hlink'
      exact .inr ⟨link, rfl, hlink, by simpa [eq_comm] using heq⟩
    · left
      simpa [hl] using hlink'
  constructor
  · intro l' link' hlink' hreader
    rcases hback hlink' with hlink | ⟨link, rfl, hlink, rfl⟩
    · exact h.gone l' link' hlink hreader
    · exact hgone link hlink hreader
  · intro l' link' job hlink' hreader
    rcases hback hlink' with hlink | ⟨link, rfl, hlink, rfl⟩
    · exact h.pushing l' link' job hlink hreader
    · exact hpushing link job hlink hreader
  · intro l' link' hlink' hreader
    rcases hback hlink' with hlink | ⟨link, rfl, hlink, rfl⟩
    · exact h.last l' link' hlink hreader
    · exact h.last l' link hlink (hleft link hlink hreader)
  · intro l' link' hlink' hreader
    rcases hback hlink' with hlink | ⟨link, rfl, hlink, rfl⟩
    · exact h.idle l' link' hlink hreader
    · exact h.idle l' link hlink (hleft link hlink hreader)

/-- A link pushes a job, after which its reader has left only if that was the cleanup. -/
lemma Queue.push {f : Link → Link} {l : Nat} {job : Job} (h : g.Queue) (hjob : job.link = l)
    (hgone : ∀ link, g.links[l]? = some link → (f link).reader = .left → (f link).gone)
    (hleaving : ∀ link, g.links[l]? = some link → (f link).reader ≠ .leaving)
    (hpushing : ∀ link job, g.links[l]? = some link → (f link).reader ≠ .pushing job)
    (hkind : ∀ link, g.links[l]? = some link → (f link).reader = .left → job.kind = .cleanup) :
    Queue { g with links := g.links.modify l f, jobs := g.jobs ++ [job] } := by
  have hback : ∀ {l' : Nat} {link' : Link}, (g.links.modify l f)[l']? = some link' →
      (l' ≠ l ∧ g.links[l']? = some link') ∨ ∃ link, l' = l ∧ g.links[l]? = some link ∧
          link' = f link := by
    intro l' link' hlink'
    rw [List.getElem?_modify] at hlink'
    by_cases hl : l = l'
    · subst hl
      obtain ⟨link, hlink, heq⟩ := Option.map_eq_some_iff.mp hlink'
      exact .inr ⟨link, rfl, hlink, by simpa [eq_comm] using heq⟩
    · left
      exact ⟨Ne.symm hl, by simpa [hl] using hlink'⟩
  have hother : ∀ l', l' ≠ l →
      work { g with links := g.links.modify l f, jobs := g.jobs ++ [job] } l' = g.work l' := by
    intro l' hl
    simp [work, hjob, Ne.symm hl]
  have hown : work { g with links := g.links.modify l f, jobs := g.jobs ++ [job] } l =
      g.work l ++ [job] := by
    simp [work, hjob]
  constructor
  · intro l' link' hlink' hreader
    rcases hback hlink' with ⟨-, hlink⟩ | ⟨link, rfl, hlink, rfl⟩
    · exact h.gone l' link' hlink hreader
    · exact hgone link hlink (hreader.resolve_left (hleaving link hlink))
  · intro l' link' job' hlink' hreader
    rcases hback hlink' with ⟨-, hlink⟩ | ⟨link, rfl, hlink, rfl⟩
    · exact h.pushing l' link' job' hlink hreader
    · exact absurd hreader (hpushing link job' hlink)
  · intro l' link' hlink' hreader hw c hc
    rcases hback hlink' with ⟨hne, hlink⟩ | ⟨link, rfl, hlink, rfl⟩
    · rw [hother l' hne] at hc
      exact h.last l' link' hlink hreader hw c hc
    · rw [hown, List.getLast?_append] at hc
      obtain rfl : job = c := by simpa using hc
      exact hkind link hlink hreader
  · intro l' link' hlink' hreader hw hnil
    rcases hback hlink' with ⟨hne, hlink⟩ | ⟨link, rfl, hlink, rfl⟩
    · rw [hother l' hne] at hnil
      exact h.idle l' link' hlink hreader hw hnil
    · rw [hown] at hnil
      simp at hnil

/-- When no jobs are executed there is nothing to say about them. -/
lemma Queue.stopped (h : g.Queue) (hlinks : g'.links = g.links) (hnot : g'.main.working = false) :
    g'.Queue where
  gone := hlinks ▸ h.gone
  pushing := hlinks ▸ h.pushing
  last _ _ _ _ hw := Bool.noConfusion (hnot.symm.trans hw)
  idle _ _ _ _ hw := Bool.noConfusion (hnot.symm.trans hw)

/-- A cleanup leaves its link with busy sessions only. -/
lemma Queue.cleanup (h : g.Queue) {job : Job} (hjob : g.main = .executing job) :
    Queue { g with
      sessions := g.sessions.filter fun s => s.link ≠ job.link || s.busy
      main := .cleaning ((g.sessions.filter fun s => s.link = job.link && !s.busy).map
        SessionState.internal) } := by
  have hworking : g.main.working := by simp [hjob, Main.working, Main.serving]
  have hwork : ∀ l, g.work l = if job.link = l then job :: g.jobs.filter (·.link = l)
      else g.jobs.filter (·.link = l) := by
    intro l
    by_cases hl : job.link = l <;> simp [work, hjob, Main.job, hl]
  constructor
  · exact h.gone
  · exact h.pushing
  · intro l link hlink hleft _ c hc
    refine h.last l link hlink hleft hworking c ?_
    simp only [work, Main.job, Option.toList_none, List.nil_append] at hc
    rw [hwork l]
    split_ifs
    · rw [List.getLast?_cons, hc]
      rfl
    · exact hc
  · intro l link hlink hleft _ hnil s hs hl
    obtain ⟨hmem, hkept⟩ := List.mem_filter.mp hs
    simp only [work, Main.job, Option.toList_none, List.nil_append] at hnil
    by_cases hown : job.link = l
    · simpa [hl, hown] using hkept
    · refine h.idle l link hlink hleft hworking ?_ s hmem hl
      rw [hwork l, if_neg hown, hnil]

end ProviderOwned.Owner.State
