import PhysicalAiRuntime.Foundations.Monitor
import PhysicalAiRuntime.MjpegCam.Jpeg

/-! The capture device over the life of the node: what `open_device`, `capture_loop` and
`close_device` ask of the kernel, and what the kernel keeps for them. The answers of the kernel are
given from outside, so that any step may fail. -/
namespace PhysicalAiRuntime.MjpegCam
open Buffer
set_option autoImplicit false
set_option maxHeartbeats 250000

/-! ## System calls -/

structure Region where
  start : ℕ
  length : ℕ
  deriving DecidableEq, Repr

/-- The `VIDIOC` requests; `reqBufs` says how many buffers the driver granted, `qbuf` whether it took
the buffer, `dqbuf` which buffer it gave back, `streamOn` whether the stream was started. -/
inductive Request where
  | queryCap
  | sFmt
  | gParm
  | sParm
  | reqBufs (granted : Option ℕ)
  | queryBuf (index : ℕ)
  | qbuf (index : ℕ) (taken : Bool)
  | dqbuf (index : Option ℕ)
  | streamOn (started : Bool)
  | streamOff
  deriving DecidableEq, Repr

/-- `fd` is `none` where the code passes `-1`. `load` is the access to the bytes of a buffer. -/
inductive Call where
  | open (fd : ℕ)
  | ioctl (fd : Option ℕ) (request : Request)
  | mmap (fd : Option ℕ) (region : Region)
  | load (index : ℕ) (region : Region) (indices : List ℕ)
  | munmap (region : Region)
  | close (fd : ℕ)
  deriving DecidableEq, Repr

/-! ## The code -/

/-- `fd` is `none` for `-1`, a buffer is `none` while its `start` is null. -/
structure Node where
  fd : Option ℕ
  buffers : List (Option Region)
  calls : List Call
  published : List (List UInt8)
  deriving DecidableEq, Repr

structure Capabilities where
  videoCapture : Bool
  streaming : Bool
  deriving DecidableEq, Repr

/-- What the kernel answers for one buffer: its length, where it is mapped, whether it is queued. -/
structure BufferAnswer where
  queryBuf : Option ℕ
  mmap : Option ℕ
  qbuf : Bool
  deriving DecidableEq, Repr

/-- What the kernel answers to `open_device`; `none` and `false` are failures. -/
structure OpenAnswer where
  fd : Option ℕ
  queryCap : Option Capabilities
  sFmt : Option UInt32
  gParm : Bool
  sParm : Bool
  reqBufs : Option ℕ
  buffer : ℕ → BufferAnswer
  streamOn : Bool

/-- `V4L2_PIX_FMT_MJPEG`. -/
def pixFmtMjpeg : UInt32 := 0x47504A4D

namespace Node

/-- The members as they are initialised. -/
def fresh : Node := ⟨none, [], [], []⟩

def call (n : Node) (c : Call) : Node := { n with calls := n.calls ++ [c] }

def ioctl (n : Node) (request : Request) : Node := n.call (.ioctl n.fd request)

def unmapBuffers (n : Node) : Node :=
  { n with
    calls := n.calls ++ (n.buffers.filterMap id).map Call.munmap
    buffers := [] }

def closeDevice (n : Node) : Node :=
  match n.fd with
  | none => n.unmapBuffers
  | some fd => { ((n.ioctl .streamOff).unmapBuffers).call (.close fd) with fd := none }

def mapBuffer (n : Node) (index : ℕ) (region : Region) : Node :=
  { n with buffers := n.buffers.set index (some region) }.call (.mmap n.fd region)

/-- The loop of `open_device` from buffer `index` on, `remaining` buffers before its end. -/
def mapBuffers (answer : ℕ → BufferAnswer) : ℕ → ℕ → Node → Node × Bool
  | 0, _, n => (n, true)
  | remaining + 1, index, n =>
    let n := n.ioctl (.queryBuf index)
    match (answer index).queryBuf with
    | none => (n.closeDevice, false)
    | some length =>
      match (answer index).mmap with
      | none => ({ n with buffers := n.buffers.set index none }.closeDevice, false)
      | some start =>
        let n := (n.mapBuffer index ⟨start, length⟩).ioctl (.qbuf index (answer index).qbuf)
        if (answer index).qbuf then mapBuffers answer remaining (index + 1) n
        else (n.closeDevice, false)

/-- The frame interval is read and set if the driver answers; its failure is only a warning. -/
def setFrameInterval (n : Node) (a : OpenAnswer) : Node :=
  let n := n.ioctl .gParm
  if a.gParm then n.ioctl .sParm else n

/-- `open_device` from `VIDIOC_REQBUFS` on. -/
def startStreaming (n : Node) (a : OpenAnswer) : Node × Bool :=
  let n := (n.setFrameInterval a).ioctl (.reqBufs a.reqBufs)
  match a.reqBufs with
  | none => (n.closeDevice, false)
  | some count =>
    if count < 2 then (n.closeDevice, false)
    else
      match mapBuffers a.buffer count 0 { n with buffers := List.replicate count none } with
      | (n, false) => (n, false)
      | (n, true) =>
        let n := n.ioctl (.streamOn a.streamOn)
        if a.streamOn then (n, true) else (n.closeDevice, false)

def openDevice (n : Node) (a : OpenAnswer) : Node × Bool :=
  match a.fd with
  | none => ({ n with fd := none }, false)
  | some fd =>
    let n := { n with fd := some fd }.call (.open fd)
    let n := n.ioctl .queryCap
    match a.queryCap with
    | none => (n.closeDevice, false)
    | some cap =>
      if ¬ (cap.videoCapture ∧ cap.streaming) then (n.closeDevice, false)
      else
        let n := n.ioctl .sFmt
        match a.sFmt with
        | none => (n.closeDevice, false)
        | some pixelformat =>
          if pixelformat ≠ pixFmtMjpeg then (n.closeDevice, false)
          else n.startStreaming a

end Node

/-- How a round of the capture loop goes. `frame` is a buffer that the driver gave back with
`contents` in its memory; `requeued` says whether the driver took it again. -/
inductive Round where
  | interrupted
  | selectFailed
  | timedOut
  | again
  | dequeueFailed
  | frame (index : ℕ) (contents : List UInt8) (bytesused : UInt32) (requeued : Bool)
  deriving DecidableEq, Repr

namespace Node

/-- The block that publishes a dequeued buffer. A read outside the buffer has no result. -/
def publishFrame (n : Node) (index : ℕ) (contents : List UInt8) (bytesused : UInt32) :
    Option Node :=
  match captured (n.buffers.map (Option.map fun _ => contents)) index bytesused [] with
  | none => none
  | some (none, _) => some n
  | some (some data, indices) =>
    match n.buffers[index]? with
    | some (some region) =>
      some { n.call (.load index region indices) with published := n.published ++ [data] }
    | _ => none

/-- The rounds until the node is stopped or the loop is left. -/
def captureLoop : Node → List Round → Option Node
  | n, [] => some n
  | n, .interrupted :: rounds => captureLoop n rounds
  | n, .selectFailed :: _ => some n
  | n, .timedOut :: rounds => captureLoop n rounds
  | n, .again :: rounds => captureLoop (n.ioctl (.dqbuf none)) rounds
  | n, .dequeueFailed :: _ => some (n.ioctl (.dqbuf none))
  | n, .frame index contents bytesused requeued :: rounds =>
    match (n.ioctl (.dqbuf (some index))).publishFrame index contents bytesused with
    | none => none
    | some n =>
      let n := n.ioctl (.qbuf index requeued)
      if requeued then captureLoop n rounds else some n

/-- The constructor, the capture thread and the destructor; the constructor throws when the device
does not open. -/
def lifetime (a : OpenAnswer) (rounds : List Round) : Option Node :=
  match fresh.openDevice a with
  | (n, false) => some n
  | (n, true) => (n.captureLoop rounds).map closeDevice

end Node

/-! ## The kernel -/

/-- The number of buffers that were granted, those that the driver has, and whether it streams. -/
structure Driver where
  granted : ℕ
  queued : List ℕ
  streaming : Bool
  deriving DecidableEq, Repr

namespace Driver

def initial : Driver := ⟨0, [], false⟩

/-- The driver runs no stream and has no buffer. -/
def Idle (d : Driver) : Prop := d.streaming = false ∧ d.queued = []

instance (d : Driver) : Decidable d.Idle :=
  inferInstanceAs (Decidable (d.streaming = false ∧ d.queued = []))

/-- The format and the buffers are settled while the driver is idle. A request on a buffer that was
not granted, a second `qbuf` of a buffer, and a `dqbuf` without a stream are forbidden, and so is a
`dqbuf` that gives back what the driver does not have. -/
def ioctl (d : Driver) : Request → Option Driver
  | .queryCap | .gParm => some d
  | .sFmt | .sParm => if d.Idle then some d else none
  | .reqBufs granted =>
    if d.Idle then some { d with granted := granted.getD d.granted } else none
  | .queryBuf index => if index < d.granted then some d else none
  | .qbuf index taken =>
    if index < d.granted ∧ index ∉ d.queued then
      some (if taken then { d with queued := d.queued ++ [index] } else d)
    else none
  | .dqbuf none => if d.streaming then some d else none
  | .dqbuf (some index) =>
    if d.streaming ∧ index ∈ d.queued then some { d with queued := d.queued.erase index }
    else none
  | .streamOn started =>
    if d.streaming then none else some { d with streaming := started }
  | .streamOff => some { d with queued := [], streaming := false }

end Driver

/-- The open descriptor, the mapped regions in the order of their buffers, and the driver. -/
structure Kernel where
  fd : Option ℕ
  mapped : List Region
  driver : Driver
  deriving DecidableEq, Repr

namespace Kernel

def initial : Kernel := ⟨none, [], Driver.initial⟩

/-- A call on a descriptor that is not open, a mapping beyond the granted buffers, an access to
bytes that are not those of a mapped buffer which the driver has given back, and taking a mapping
or the descriptor from a driver that is not idle are forbidden. -/
def step (k : Kernel) : Call → Option Kernel
  | .open fd => if k.fd = none then some { k with fd := some fd } else none
  | .ioctl fd request =>
    if fd ≠ none ∧ k.fd = fd then
      (k.driver.ioctl request).map fun d => { k with driver := d }
    else none
  | .mmap fd region =>
    if (fd ≠ none ∧ k.fd = fd) ∧ k.mapped.length < k.driver.granted then
      some { k with mapped := k.mapped ++ [region] }
    else none
  | .load index region indices =>
    if k.mapped[index]? = some region ∧ index ∉ k.driver.queued ∧
        ∀ i ∈ indices, i < region.length then some k
    else none
  | .munmap region =>
    if region ∈ k.mapped ∧ k.driver.Idle then some { k with mapped := k.mapped.erase region }
    else none
  | .close fd =>
    if k.fd = some fd ∧ k.driver.Idle then some { k with fd := none, driver := Driver.initial }
    else none

theorem step_ioctl {k : Kernel} {fd : Option ℕ} (hfd : fd ≠ none) (hk : k.fd = fd)
    (request : Request) : k.step (.ioctl fd request) =
      (k.driver.ioctl request).map fun d => { k with driver := d } := if_pos ⟨hfd, hk⟩

end Kernel

/-! ## What the node and the kernel agree on -/

/-- The kernel accepted every call, holds the node's descriptor and regions, and the driver is in
the state `d`. -/
def Node.Agrees (n : Node) (d : Driver) : Prop :=
  Monitor.after Kernel.step Kernel.initial n.calls = some ⟨n.fd, n.buffers.filterMap id, d⟩

/-- The kernel accepted every call and holds nothing of the node any more. -/
def Node.Clean (n : Node) : Prop :=
  Monitor.after Kernel.step Kernel.initial n.calls = some Kernel.initial

namespace Node

/-- A request on the open descriptor is judged by the driver alone. -/
theorem Agrees.ioctl {n : Node} {d d' : Driver} (h : n.Agrees d) (hfd : n.fd ≠ none)
    (request : Request) (hr : d.ioctl request = some d') : (n.ioctl request).Agrees d' := by
  unfold Agrees Node.ioctl call
  rw [Monitor.after_call h, Kernel.step_ioctl hfd rfl]
  dsimp only
  rw [hr]
  rfl

theorem after_munmaps (fd : Option ℕ) (regions : List Region) {d : Driver} (hd : d.Idle) :
    Monitor.after Kernel.step ⟨fd, regions, d⟩ (regions.map Call.munmap) = some ⟨fd, [], d⟩ := by
  induction regions with
  | nil => rfl
  | cons region regions ih =>
    have hstep : Kernel.step ⟨fd, region :: regions, d⟩ (.munmap region) =
        some ⟨fd, regions, d⟩ := by
      have hmem : region ∈ region :: regions := List.mem_cons_self
      refine (if_pos ⟨hmem, hd⟩).trans ?_
      rw [List.erase_cons_head]
    have hone : Monitor.after Kernel.step ⟨fd, region :: regions, d⟩ [.munmap region] =
        some ⟨fd, regions, d⟩ := (Monitor.after_call (Monitor.after_nil _) _).trans hstep
    exact Monitor.after_trans hone ih

theorem Agrees.unmapBuffers {n : Node} {d : Driver} (h : n.Agrees d) (hd : d.Idle) :
    n.unmapBuffers.Agrees d :=
  Monitor.after_trans h (after_munmaps n.fd (n.buffers.filterMap id) hd)

/-- **Closing gives everything back**, however much of the device was set up. -/
theorem Agrees.closeDevice {n : Node} {d : Driver} (h : n.Agrees d) (hfd : n.fd ≠ none) :
    n.closeDevice.Clean := by
  obtain ⟨fd, hfd'⟩ := Option.ne_none_iff_exists'.mp hfd
  have hidle : Driver.Idle ⟨d.granted, [], false⟩ := ⟨rfl, rfl⟩
  have hoff : (n.ioctl .streamOff).Agrees ⟨d.granted, [], false⟩ := h.ioctl hfd .streamOff rfl
  have hu := hoff.unmapBuffers hidle
  have hk : (n.ioctl .streamOff).unmapBuffers.fd = some fd := hfd'
  unfold Node.closeDevice Clean
  rw [hfd']
  dsimp only [call]
  rw [Monitor.after_call hu, hk]
  exact if_pos ⟨rfl, hidle⟩

theorem closeDevice_published (n : Node) : n.closeDevice.published = n.published := by
  unfold Node.closeDevice
  cases n.fd <;> rfl

/-! ## Opening -/

/-- The device is open and streams into the mapped `regions`. -/
structure Streams (n : Node) (regions : List Region) (queued : List ℕ) : Prop where
  fd : n.fd ≠ none
  buffers : n.buffers = regions.map some
  agrees : n.Agrees ⟨regions.length, queued, true⟩
  queued : queued.Perm (List.range regions.length)

/-- How a part of `open_device` ends: with what it is there for, or with nothing left. -/
def Ends (done : Node → Prop) (published : List (List UInt8)) : Node × Bool → Prop
  | (n, true) => n.published = published ∧ done n
  | (n, false) => n.published = published ∧ n.Clean

theorem ends_closed {n : Node} {d : Driver} (done : Node → Prop) (h : n.Agrees d)
    (hfd : n.fd ≠ none) : Ends done n.published (n.closeDevice, false) :=
  ⟨closeDevice_published n, h.closeDevice hfd⟩

theorem filterMap_regions (regions : List Region) (k : ℕ) :
    (regions.map some ++ List.replicate k none).filterMap id = regions := by
  rw [List.filterMap_append, List.filterMap_map, List.filterMap_replicate_of_none rfl,
    List.append_nil]
  exact List.filterMap_some

theorem regions_of_buffers {n : Node} {regions : List Region}
    (h : n.buffers = regions.map some) : n.buffers.filterMap id = regions := by
  have hzero := filterMap_regions regions 0
  rw [List.replicate_zero, List.append_nil] at hzero
  rw [h, hzero]

theorem set_region (regions : List Region) (k : ℕ) (buffer : Option Region) :
    (regions.map some ++ List.replicate (k + 1) none).set regions.length buffer =
      regions.map some ++ buffer :: List.replicate k none := by
  rw [List.set_append_right _ _ (by rw [List.length_map]), List.length_map, Nat.sub_self]
  rfl

/-- What the mapping loop has done before buffer `regions.length`. -/
structure Mapping (n : Node) (regions : List Region) (remaining : ℕ) : Prop where
  fd : n.fd ≠ none
  buffers : n.buffers = regions.map some ++ List.replicate remaining none
  agrees : n.Agrees ⟨regions.length + remaining, List.range regions.length, false⟩

theorem Mapping.regions {n : Node} {regions : List Region} {remaining : ℕ}
    (h : n.Mapping regions remaining) : n.buffers.filterMap id = regions := by
  rw [h.buffers]
  exact filterMap_regions regions remaining

/-- A buffer that is mapped is the next region of the kernel too. -/
theorem Mapping.mapBuffer {n : Node} {regions : List Region} {remaining : ℕ}
    (h : n.Mapping regions (remaining + 1)) (region : Region) :
    (n.mapBuffer regions.length region).Agrees
        ⟨regions.length + (remaining + 1), List.range regions.length, false⟩ ∧
      (n.mapBuffer regions.length region).buffers =
        (regions ++ [region]).map some ++ List.replicate remaining none := by
  have hbuffers : (n.mapBuffer regions.length region).buffers =
      (regions ++ [region]).map some ++ List.replicate remaining none := by
    change n.buffers.set regions.length (some region) = _
    rw [h.buffers, set_region, List.map_append, List.append_assoc]
    rfl
  refine ⟨?_, hbuffers⟩
  have ha := h.agrees
  have hgranted : regions.length < regions.length + (remaining + 1) := by omega
  unfold Agrees at ha ⊢
  rw [h.regions] at ha
  rw [hbuffers, filterMap_regions]
  change Monitor.after Kernel.step Kernel.initial (n.calls ++ [.mmap n.fd region]) = _
  rw [Monitor.after_call ha]
  exact if_pos ⟨⟨h.fd, rfl⟩, hgranted⟩

theorem not_mem_range_self (k : ℕ) : k ∉ List.range k := fun h =>
  absurd (List.mem_range.mp h) (Nat.lt_irrefl k)

/-- The driver is offered the buffer that was mapped last. -/
theorem ioctl_qbuf_next {d : Driver} {k remaining : ℕ} (hgranted : d.granted = k + (remaining + 1))
    (hqueued : d.queued = List.range k) (taken : Bool) :
    d.ioctl (.qbuf k taken) = some (if taken then { d with queued := d.queued ++ [k] } else d) := by
  have hfree : k < d.granted ∧ k ∉ d.queued := by
    rw [hgranted, hqueued]
    exact ⟨by omega, not_mem_range_self k⟩
  exact if_pos hfree

theorem mapBuffers_ends (answer : ℕ → BufferAnswer) {remaining : ℕ} {n : Node}
    {regions : List Region} (h : n.Mapping regions remaining) :
    Ends (fun n' => ∃ regions', n'.Mapping regions' 0) n.published
      (mapBuffers answer remaining regions.length n) := by
  induction remaining generalizing n regions with
  | zero => exact ⟨rfl, regions, h⟩
  | succ remaining ih =>
    have hgranted : regions.length < regions.length + (remaining + 1) := by omega
    have hquery := h.agrees.ioctl h.fd (.queryBuf regions.length) (if_pos hgranted)
    have hm : (n.ioctl (.queryBuf regions.length)).Mapping regions (remaining + 1) :=
      ⟨h.fd, h.buffers, hquery⟩
    unfold mapBuffers
    cases hlength : (answer regions.length).queryBuf with
    | none => exact ends_closed _ hquery h.fd
    | some length =>
      cases hstart : (answer regions.length).mmap with
      | none =>
        have hsame : n.buffers.set regions.length none = n.buffers := by
          rw [h.buffers, set_region, List.replicate_succ]
        have hnull : { n.ioctl (.queryBuf regions.length) with
            buffers := n.buffers.set regions.length none }.Agrees
            ⟨regions.length + (remaining + 1), List.range regions.length, false⟩ := by
          rw [hsame]
          exact hquery
        exact ends_closed _ hnull h.fd
      | some start =>
        obtain ⟨hmapped, hbuffers⟩ := hm.mapBuffer ⟨start, length⟩
        have hoffered := hmapped.ioctl h.fd _ (ioctl_qbuf_next rfl rfl (answer regions.length).qbuf)
        cases htaken : (answer regions.length).qbuf with
        | false =>
          rw [htaken] at hoffered
          exact ends_closed _ hoffered h.fd
        | true =>
          rw [htaken] at hoffered
          have hcount : (regions ++ [(⟨start, length⟩ : Region)]).length = regions.length + 1 :=
            List.length_append
          have htotal : regions.length + 1 + remaining = regions.length + (remaining + 1) := by
            omega
          have hnext : Mapping (((n.ioctl (.queryBuf regions.length)).mapBuffer regions.length
              ⟨start, length⟩).ioctl (.qbuf regions.length true)) (regions ++ [⟨start, length⟩])
              remaining :=
            ⟨h.fd, hbuffers, by rw [hcount, htotal, List.range_succ]; exact hoffered⟩
          have hends := ih hnext
          rw [hcount] at hends
          exact hends

theorem setFrameInterval_keeps {n : Node} (hfd : n.fd ≠ none) (h : n.Agrees Driver.initial)
    (a : OpenAnswer) : (n.setFrameInterval a).Agrees Driver.initial ∧
      (n.setFrameInterval a).fd = n.fd ∧ (n.setFrameInterval a).published = n.published := by
  have hget : (n.ioctl .gParm).Agrees Driver.initial := h.ioctl hfd _ rfl
  unfold setFrameInterval
  by_cases hg : a.gParm = true
  · rw [if_pos hg]
    exact ⟨hget.ioctl hfd _ rfl, rfl, rfl⟩
  · rw [if_neg hg]
    exact ⟨hget, rfl, rfl⟩

/-- The buffers that the driver granted are mapped from none. -/
theorem Agrees.mapping {n : Node} {count : ℕ} (h : n.Agrees ⟨count, [], false⟩)
    (hfd : n.fd ≠ none) (hbuffers : n.buffers.filterMap id = []) :
    Mapping { n with buffers := List.replicate count none } [] count := by
  have hnone : (List.replicate count (none : Option Region)).filterMap id = [] :=
    List.filterMap_replicate_of_none rfl
  refine ⟨hfd, rfl, ?_⟩
  rw [List.length_nil, Nat.zero_add]
  unfold Agrees at h ⊢
  rw [hbuffers] at h
  rw [hnone]
  exact h

/-- `open_device` behind the format negotiation. -/
theorem Agrees.startStreaming {n : Node} (h : n.Agrees Driver.initial) (hfd : n.fd ≠ none)
    (hbuffers : n.buffers = []) (a : OpenAnswer) :
    Ends (fun n' => ∃ regions queued, n'.Streams regions queued) n.published
      (n.startStreaming a) := by
  obtain ⟨hset, hsetfd, hsetpublished⟩ := setFrameInterval_keeps hfd h a
  have hsetfd' : (n.setFrameInterval a).fd ≠ none := hsetfd ▸ hfd
  have hreq := hset.ioctl hsetfd' (.reqBufs a.reqBufs) rfl
  have hempty : ((n.setFrameInterval a).ioctl (.reqBufs a.reqBufs)).buffers.filterMap id = [] := by
    have hsame : (n.setFrameInterval a).buffers = n.buffers := by
      unfold setFrameInterval
      cases a.gParm <;> rfl
    change (n.setFrameInterval a).buffers.filterMap id = []
    rw [hsame, hbuffers]
    rfl
  unfold Node.startStreaming
  rw [← hsetpublished]
  cases hcount : a.reqBufs with
  | none =>
    rw [hcount] at hreq
    exact ends_closed _ hreq hsetfd'
  | some count =>
    rw [hcount] at hreq hempty
    have hgranted : ((n.setFrameInterval a).ioctl (.reqBufs (some count))).Agrees
        ⟨count, [], false⟩ := hreq
    dsimp only
    by_cases htwo : count < 2
    · rw [if_pos htwo]
      exact ends_closed _ hgranted hsetfd'
    · rw [if_neg htwo]
      have hends := mapBuffers_ends a.buffer (hgranted.mapping hsetfd' hempty)
      rw [List.length_nil] at hends
      generalize mapBuffers a.buffer count 0 _ = result at hends
      obtain ⟨mapped, ok⟩ := result
      cases ok with
      | false => exact hends
      | true =>
        obtain ⟨hpublished, regions, hm⟩ := hends
        have hpublished' : mapped.published = (n.setFrameInterval a).published := hpublished
        rw [← hpublished']
        have hon := hm.agrees.ioctl hm.fd (.streamOn a.streamOn) rfl
        have hregions : mapped.buffers = regions.map some := by
          rw [hm.buffers]
          exact List.append_nil _
        dsimp only
        by_cases hs : a.streamOn = true
        · rw [if_pos hs]
          rw [hs] at hon ⊢
          exact ⟨rfl, regions, _, hm.fd, hregions, hon, List.Perm.refl _⟩
        · rw [if_neg hs]
          exact ends_closed _ hon hm.fd

theorem openDevice_ends (a : OpenAnswer) :
    Ends (fun n => ∃ regions queued, n.Streams regions queued) [] (fresh.openDevice a) := by
  unfold openDevice
  cases hfd : a.fd with
  | none => exact ⟨rfl, rfl⟩
  | some fd =>
    have hopen : ({ fresh with fd := some fd }.call (.open fd)).Agrees Driver.initial := rfl
    have hne : ({ fresh with fd := some fd }.call (.open fd)).fd ≠ none := Option.some_ne_none fd
    have hcap := hopen.ioctl hne .queryCap rfl
    have hfmt := hcap.ioctl hne .sFmt rfl
    cases hc : a.queryCap with
    | none => exact ends_closed _ hcap hne
    | some cap =>
      dsimp only
      by_cases hboth : cap.videoCapture ∧ cap.streaming
      · rw [if_neg (not_not.mpr hboth)]
        cases hf : a.sFmt with
        | none => exact ends_closed _ hfmt hne
        | some pixelformat =>
          dsimp only
          by_cases hm : pixelformat ≠ pixFmtMjpeg
          · rw [if_pos hm]
            exact ends_closed _ hfmt hne
          · rw [if_neg hm]
            exact hfmt.startStreaming hne rfl a
      · rw [if_pos hboth]
        exact ends_closed _ hcap hne

end Node

/-! ## Capturing -/

/-- What the driver promises of a buffer it gives back: it is one of the mapped buffers, and the
used bytes are in it. -/
def Round.Delivers (regions : List Region) : Round → Prop
  | .frame index contents bytesused _ =>
    ∃ region, regions[index]? = some region ∧ contents.length = region.length ∧
      bytesused.toNat ≤ region.length
  | _ => True

/-- The payload of a buffer, from four used bytes on. -/
def payload (contents : List UInt8) (bytesused : UInt32) : List (List UInt8) :=
  if 4 ≤ bytesused then [contents.take (payloadSize contents bytesused.toUInt64).toNat] else []

/-- The payloads of the buffers dequeued in the rounds, up to the one that ends the loop. -/
def frames : List Round → List (List UInt8)
  | [] => []
  | .interrupted :: rounds => frames rounds
  | .selectFailed :: _ => []
  | .timedOut :: rounds => frames rounds
  | .again :: rounds => frames rounds
  | .dequeueFailed :: _ => []
  | .frame _ contents bytesused requeued :: rounds =>
    payload contents bytesused ++ if requeued then frames rounds else []

/-- The code copies the payload out of the buffer, and reads used bytes only. -/
theorem captured_reads {buffers : List (Option (List UInt8))} {index : ℕ} {bytesused : UInt32}
    {contents : List UInt8} (hbuffer : buffers[index]? = some (some contents))
    (hused : bytesused.toNat ≤ contents.length) :
    Reads bytesused.toNat (captured buffers index bytesused)
      (payload contents bytesused).head? := by
  have hwide : bytesused.toUInt64.toNat = bytesused.toNat := UInt32.toNat_toUInt64 bytesused
  unfold captured payload
  rw [hbuffer]
  by_cases hfour : 4 ≤ bytesused
  · dsimp only
    rw [if_pos hfour, if_pos hfour]
    rw [← hwide] at hused ⊢
    have hle := UInt64.le_iff_toNat_le.mp (payloadSize_le contents bytesused.toUInt64)
    have hcopied := reads_segment _ (Nat.le_trans hle hused) hle
    exact (jpegPayloadSize_reads hused).bind (hcopied.bind (reads_pure _))
  · dsimp only
    rw [if_neg hfour, if_neg hfour]
    exact reads_pure none

namespace Node

theorem Agrees.publishFrame {n : Node} {d : Driver} (h : n.Agrees d)
    {regions : List Region} (hbuffers : n.buffers = regions.map some) {index : ℕ}
    (hfree : index ∉ d.queued) {contents : List UInt8} {bytesused : UInt32} {region : Region}
    (hregion : regions[index]? = some region) (hlength : contents.length = region.length)
    (hused : bytesused.toNat ≤ region.length) :
    ∃ n', n.publishFrame index contents bytesused = some n' ∧ n'.fd = n.fd ∧
      n'.buffers = n.buffers ∧ n'.Agrees d ∧
      n'.published = n.published ++ payload contents bytesused := by
  have hat : n.buffers[index]? = some (some region) := by
    rw [hbuffers, List.getElem?_map, hregion]
    rfl
  have hbuffer : (n.buffers.map (Option.map fun _ => contents))[index]? =
      some (some contents) := by
    rw [List.getElem?_map, hat]
    rfl
  obtain ⟨indices, hreads, hbelow⟩ := captured_reads hbuffer (hlength ▸ hused) []
  unfold Node.publishFrame
  rw [hreads]
  cases hp : payload contents bytesused with
  | nil => exact ⟨n, rfl, rfl, rfl, h, (List.append_nil _).symm⟩
  | cons data rest =>
    have hone : rest = [] := by
      unfold payload at hp
      by_cases hfour : 4 ≤ bytesused
      · rw [if_pos hfour] at hp
        exact (List.cons.inj hp).2.symm
      · rw [if_neg hfour] at hp
        cases hp
    have hmapped : (n.buffers.filterMap id)[index]? = some region := by
      rw [regions_of_buffers hbuffers, hregion]
    have hload : (n.call (.load index region indices)).Agrees d := by
      unfold Agrees at h ⊢
      change Monitor.after Kernel.step Kernel.initial (n.calls ++ [.load index region indices]) = _
      rw [Monitor.after_call h]
      exact if_pos ⟨hmapped, hfree, fun i hi => Nat.lt_of_lt_of_le (hbelow i hi) hused⟩
    rw [hat, hone]
    exact ⟨_, rfl, rfl, rfl, hload, rfl⟩

/-- One dequeued buffer: it is read while the driver does not have it, and offered back. -/
theorem Streams.frame {n : Node} {regions : List Region} {queued : List ℕ}
    (h : n.Streams regions queued) {index : ℕ} {contents : List UInt8} {bytesused : UInt32}
    {region : Region} (hregion : regions[index]? = some region)
    (hlength : contents.length = region.length) (hused : bytesused.toNat ≤ region.length) :
    ∃ n', (n.ioctl (.dqbuf (some index))).publishFrame index contents bytesused = some n' ∧
      n'.published = n.published ++ payload contents bytesused ∧
      (n'.ioctl (.qbuf index false)).Agrees ⟨regions.length, queued.erase index, true⟩ ∧
      n'.fd ≠ none ∧
      (n'.ioctl (.qbuf index true)).Streams regions (queued.erase index ++ [index]) := by
  have hnodup : queued.Nodup := h.queued.nodup_iff.mpr List.nodup_range
  have hin : index ∈ queued := by
    rw [h.queued.mem_iff, List.mem_range]
    exact (List.getElem?_eq_some_iff.mp hregion).1
  have hfree : index ∉ queued.erase index := hnodup.not_mem_erase
  have hgranted : index < regions.length := (List.getElem?_eq_some_iff.mp hregion).1
  have hdequeued : (n.ioctl (.dqbuf (some index))).Agrees
      ⟨regions.length, queued.erase index, true⟩ :=
    h.agrees.ioctl h.fd _ (if_pos ⟨rfl, hin⟩)
  obtain ⟨n', hn', hfd, hbuffers, hagrees, hpublished⟩ := hdequeued.publishFrame h.buffers hfree
    hregion hlength hused
  have hfd' : n'.fd ≠ none := hfd ▸ h.fd
  refine ⟨n', hn', hpublished, hagrees.ioctl hfd' _ (if_pos ⟨hgranted, hfree⟩), hfd', hfd',
    hbuffers.trans h.buffers, hagrees.ioctl hfd' _ (if_pos ⟨hgranted, hfree⟩), ?_⟩
  have hback : (queued.erase index ++ [index]).Perm queued :=
    List.perm_append_comm.trans (List.perm_cons_erase hin).symm
  exact hback.trans h.queued

theorem Streams.again {n : Node} {regions : List Region} {queued : List ℕ}
    (h : n.Streams regions queued) : (n.ioctl (.dqbuf none)).Streams regions queued :=
  ⟨h.fd, h.buffers, h.agrees.ioctl h.fd _ rfl, h.queued⟩

/-- **Capturing** never reads a byte that is not the node's to read, loses no buffer to the
driver, and publishes the payloads in the order of the dequeued buffers. -/
theorem captureLoop_publishes {n : Node} {regions : List Region} {queued : List ℕ}
    (h : n.Streams regions queued) {rounds : List Round}
    (hrounds : ∀ r ∈ rounds, r.Delivers regions) :
    ∃ n' d, n.captureLoop rounds = some n' ∧ n'.fd ≠ none ∧ n'.Agrees d ∧
      n'.published = n.published ++ frames rounds := by
  induction rounds generalizing n queued with
  | nil => exact ⟨n, _, rfl, h.fd, h.agrees, (List.append_nil _).symm⟩
  | cons r rounds ih =>
    have hrest : ∀ r ∈ rounds, r.Delivers regions := fun q hq =>
      hrounds q (List.mem_cons_of_mem r hq)
    cases r with
    | interrupted => exact ih h hrest
    | selectFailed => exact ⟨n, _, rfl, h.fd, h.agrees, (List.append_nil _).symm⟩
    | timedOut => exact ih h hrest
    | again => exact ih h.again hrest
    | dequeueFailed =>
      exact ⟨_, _, rfl, h.fd, h.again.agrees, (List.append_nil _).symm⟩
    | frame index contents bytesused requeued =>
      obtain ⟨region, hregion, hlength, hused⟩ := hrounds _ List.mem_cons_self
      obtain ⟨n', hn', hpublished, hkept, hfd, hback⟩ := h.frame hregion hlength hused
      unfold captureLoop frames
      rw [hn']
      dsimp only
      cases requeued with
      | false =>
        rw [if_neg Bool.false_ne_true, if_neg Bool.false_ne_true, List.append_nil]
        exact ⟨_, _, rfl, hfd, hkept, hpublished⟩
      | true =>
        rw [if_pos rfl, if_pos rfl, ← List.append_assoc, ← hpublished]
        exact ih hback hrest

/-- A camera with two buffers of eight bytes. -/
def twoBuffers : OpenAnswer where
  fd := some 3
  queryCap := some ⟨true, true⟩
  sFmt := some pixFmtMjpeg
  gParm := true
  sParm := false
  reqBufs := some 2
  buffer := fun index => ⟨some 8, some (4096 * (index + 1)), true⟩
  streamOn := true

/-- It gives back both buffers, the second of which the driver does not take again. -/
def twoFrames : List Round :=
  [.timedOut, .frame 1 [0xFF, 0xD8, 0x01, 0xFF, 0xD9, 0x00, 0x00, 0x00] 8 true, .again,
    .frame 0 [0xFF, 0xD8, 0x02, 0xFF, 0xD9, 0x00, 0x00, 0x00] 6 false]

end Node

end PhysicalAiRuntime.MjpegCam
