import MailPanel.Binary64
import MailPanel.IsoTime

/-
What a sample of a container's counters comes to: the shares of processor and memory that
leave the broker in place of the daemon's own figures.
-/

namespace MailPanel

namespace ContainerStats

open Binary64

/- The daemon's counters -/

/-- The counters of one reading of the processors.  The daemon's counters are unsigned words of
64 bits; hosts with the second kind of control groups have none for each processor. -/
structure RawCpuStats where
  totalUsage : UInt64
  percpuUsage : Option (List UInt64)
  systemCpuUsage : Option UInt64
  onlineCpus : Option UInt64
deriving DecidableEq, Repr

/-- The memory in use, with the part of it that the host could take back at once: `cache` under
the first kind of control groups, `inactiveFile` under the second. -/
structure RawMemoryStats where
  usage : UInt64
  limit : UInt64
  cache : Option UInt64
  inactiveFile : Option UInt64
deriving DecidableEq, Repr

structure RawNetworkStats where
  rxBytes : UInt64
  txBytes : UInt64
deriving DecidableEq, Repr

/-- What the daemon answers for a sample, as far as the broker reads it: this reading, the one
before it, and the counters of every network interface. -/
structure RawContainerStats where
  cpuStats : RawCpuStats
  precpuStats : RawCpuStats
  memoryStats : RawMemoryStats
  pids : Option UInt64
  networks : Option (List (String × RawNetworkStats))
deriving DecidableEq, Repr

/- Numbers of the runtime -/

/-- The double nearest to a rational number of either sign. -/
def rounded (q : ℚ) : ℚ := if q < 0 then -nearest (-q) else nearest q

/-- A counter as it is read from the daemon's text, where the last digits of a great one are
lost. -/
def number (counter : UInt64) : ℚ := nearest counter.toNat

/- The figures -/

inductive CgroupVersion where
  | v1
  | v2
deriving DecidableEq, Repr

def detectCgroupVersion (memoryStats : RawMemoryStats) : CgroupVersion :=
  if memoryStats.cache ≠ none then .v1 else .v2

/-- How many processors the share is of: as many as have a counter, or as the daemon says. -/
def numberOfCpus (cpuStats : RawCpuStats) : ℚ :=
  match cpuStats.percpuUsage with
  | some (first :: others) => (first :: others).length
  | some [] | none => (cpuStats.onlineCpus.map number).getD 1

/-- The container's share of what all processors did between the readings, in percent of one
processor.  No share can be told where the clock of the host has not gone on. -/
def computeCpuPercent (stats : RawContainerStats) : ℚ :=
  let cpuDelta := rounded (number stats.cpuStats.totalUsage - number stats.precpuStats.totalUsage)
  let systemDelta := rounded ((stats.cpuStats.systemCpuUsage.map number).getD 0 -
    (stats.precpuStats.systemCpuUsage.map number).getD 0)
  if systemDelta ≤ 0 ∨ cpuDelta < 0 then 0
  else rounded (rounded (rounded (cpuDelta / systemDelta) * numberOfCpus stats.cpuStats) * 100)

def computeMemoryUsedBytes (memoryStats : RawMemoryStats) : ℚ :=
  let reclaimable := match detectCgroupVersion memoryStats with
    | .v1 => (memoryStats.cache.map number).getD 0
    | .v2 => (memoryStats.inactiveFile.map number).getD 0
  max 0 (rounded (number memoryStats.usage - reclaimable))

def computeMemoryPercent (memoryStats : RawMemoryStats) : ℚ :=
  if number memoryStats.limit ≤ 0 then 0
  else rounded (rounded (computeMemoryUsedBytes memoryStats / number memoryStats.limit) * 100)

structure MemoryFigures where
  usageBytes : ℚ
  limitBytes : ℚ
  percent : ℚ
deriving DecidableEq, Repr

structure NetworkFigures where
  rxBytes : ℚ
  txBytes : ℚ
deriving DecidableEq, Repr

structure ComputedContainerStats where
  cpuPercent : ℚ
  memory : MemoryFigures
  pids : Option ℚ
  network : Option NetworkFigures
deriving DecidableEq, Repr

def addNetwork (sum : NetworkFigures) (iface : RawNetworkStats) : NetworkFigures :=
  ⟨rounded (sum.rxBytes + number iface.rxBytes), rounded (sum.txBytes + number iface.txBytes)⟩

/-- The sums over all interfaces, rounded with each of them. -/
def sumNetworks (networks : Option (List (String × RawNetworkStats))) : Option NetworkFigures :=
  networks.map fun ifaces => ifaces.foldl (fun sum iface => addNetwork sum iface.2) ⟨0, 0⟩

def computeContainerStats (stats : RawContainerStats) : ComputedContainerStats where
  cpuPercent := computeCpuPercent stats
  memory := ⟨computeMemoryUsedBytes stats.memoryStats, number stats.memoryStats.limit,
    computeMemoryPercent stats.memoryStats⟩
  pids := stats.pids.map number
  network := sumNetworks stats.networks

structure ContainerStatsResponse extends ComputedContainerStats where
  sampledAt : List Char
deriving DecidableEq, Repr

/-- The answer for a sample, with the broker's own clock. -/
def sampleResponse (stats : RawContainerStats) (now : ℕ) : ContainerStatsResponse :=
  ⟨computeContainerStats stats, IsoTime.isoText now⟩

/- The response's schema -/

theorem rounded_nonneg {q : ℚ} (hq : 0 ≤ q) : 0 ≤ rounded q := by
  rw [rounded, if_neg hq.not_gt]
  exact nearest_nonneg hq

theorem number_nonneg (counter : UInt64) : 0 ≤ number counter :=
  nearest_nonneg (Nat.cast_nonneg _)

theorem numberOfCpus_nonneg (cpuStats : RawCpuStats) : 0 ≤ numberOfCpus cpuStats := by
  have honline : 0 ≤ (cpuStats.onlineCpus.map number).getD 1 := by
    cases cpuStats.onlineCpus with
    | none => exact zero_le_one
    | some online => exact number_nonneg online
  rw [numberOfCpus]
  split
  · exact Nat.cast_nonneg _
  · exact honline
  · exact honline

theorem computeCpuPercent_nonneg (stats : RawContainerStats) : 0 ≤ computeCpuPercent stats := by
  simp only [computeCpuPercent]
  split
  · exact le_rfl
  · rename_i hdelta
    rw [not_or, not_le, not_lt] at hdelta
    have hshare := rounded_nonneg (div_nonneg hdelta.2 hdelta.1.le)
    have hcpus := rounded_nonneg (mul_nonneg hshare (numberOfCpus_nonneg stats.cpuStats))
    exact rounded_nonneg (mul_nonneg hcpus (by norm_num))

theorem computeMemoryPercent_nonneg (memoryStats : RawMemoryStats) :
    0 ≤ computeMemoryPercent memoryStats := by
  rw [computeMemoryPercent]
  split
  · exact le_rfl
  · have hused : 0 ≤ computeMemoryUsedBytes memoryStats := le_max_left _ _
    have hshare := rounded_nonneg (div_nonneg hused (number_nonneg memoryStats.limit))
    exact rounded_nonneg (mul_nonneg hshare (by norm_num))

/-- Adding interfaces keeps the sums from falling below zero. -/
theorem foldl_addNetwork_nonneg (ifaces : List (String × RawNetworkStats)) {sum : NetworkFigures}
    (hsum : 0 ≤ sum.rxBytes ∧ 0 ≤ sum.txBytes) :
    0 ≤ (ifaces.foldl (fun sum iface => addNetwork sum iface.2) sum).rxBytes ∧
      0 ≤ (ifaces.foldl (fun sum iface => addNetwork sum iface.2) sum).txBytes := by
  induction ifaces generalizing sum with
  | nil => exact hsum
  | cons iface ifaces ih =>
      refine ih ⟨?_, ?_⟩
      · exact rounded_nonneg (add_nonneg hsum.1 (number_nonneg _))
      · exact rounded_nonneg (add_nonneg hsum.2 (number_nonneg _))

/-- `ContainerStatsResponseSchema`: no figure is negative. -/
structure Accepted (stats : ComputedContainerStats) : Prop where
  cpuPercent : 0 ≤ stats.cpuPercent
  memory : 0 ≤ stats.memory.usageBytes ∧ 0 ≤ stats.memory.limitBytes ∧ 0 ≤ stats.memory.percent
  pids : ∀ pids ∈ stats.pids, 0 ≤ pids
  network : ∀ network ∈ stats.network, 0 ≤ network.rxBytes ∧ 0 ≤ network.txBytes

/-- Whatever the daemon has counted, and in whatever order its readings stand, the answer passes
the schema that the web tier reads it by. -/
theorem computeContainerStats_accepted (stats : RawContainerStats) :
    Accepted (computeContainerStats stats) where
  cpuPercent := computeCpuPercent_nonneg stats
  memory := ⟨le_max_left _ _, number_nonneg _, computeMemoryPercent_nonneg _⟩
  pids := by
    intro pids hpids
    obtain ⟨counter, -, rfl⟩ := Option.map_eq_some_iff.mp hpids
    exact number_nonneg counter
  network := by
    intro network hnetwork
    obtain ⟨ifaces, -, rfl⟩ := Option.map_eq_some_iff.mp hnetwork
    exact foldl_addNetwork_nonneg ifaces ⟨le_rfl, le_rfl⟩

end ContainerStats

end MailPanel
