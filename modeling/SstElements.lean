import SstElements.MemHierarchy.MemRegionOrder
import SstElements.MemHierarchy.VictimSelection
import SstElements.MemHierarchy.StandardInterfaceMatching
import SstElements.MemHierarchy.MemBackendFlushOrder
import SstElements.MemHierarchy.MemBackendAnswers
import SstElements.MemHierarchy.MemNICFourOrder
import SstElements.MemHierarchy.TimingDRAMProtocol
import SstElements.MemHierarchy.TimingAddrCells
import SstElements.MemHierarchy.RequestReorderRow
import SstElements.Merlin.FatTreeShortest
import SstElements.Merlin.MeshTorusDeadlock
import SstElements.Merlin.HyperXDelivery
import SstElements.Merlin.DragonflyLinkTable
import SstElements.Merlin.DragonflyDelivery
import SstElements.Vanadis.SequentialRuns
import SstElements.Vanadis.MemoryDraining
import SstElements.Vanadis.LoadDelivery
import SstElements.Vanadis.PushOrder
import SstElements.Vanadis.SplitOps
import SstElements.Vanadis.FloatingPointFlags
import SstElements.Merlin.CrossbarMaximal
import SstElements.Merlin.CongestionBookkeeping
import SstElements.Merlin.ReorderLinkControlOrder
import SstElements.Merlin.LinkControl
import SstElements.Merlin.OutputQueueLengths
import SstElements.Mmu.TlbSoundness
import SstElements.VanadisOS.FutexAnswers
import SstElements.VanadisOS.SyscallAnswers
import SstElements.VanadisOS.ThreadExitSteps
import SstElements.VanadisOS.PageOwnershipSteps
import SstElements.VanadisOS.FreeListRuns
import SstElements.VanadisOS.ElfPages
import SstElements.CramSim.RowAccesses
import SstElements.CramSim.BankVisits
import SstElements.Firefly.CollectiveResults
import SstElements.MemHierarchy.SliceIndexing
import SstElements.MemHierarchy.MshrTimeout
import SstElements.MemHierarchy.FrequencyOrder
import SstElements.MemHierarchy.NmruChoice
import SstElements.MemHierarchy.InitAcceptance
import SstElements.MemHierarchy.MesiL1Books
import SstElements.Vanadis.Containers
import SstElements.Vanadis.InstructionLoader
import SstElements.VanadisOS.PhysicalAddresses
import SstElements.CramSim.TransactionOrder
import SstElements.MemHierarchy.ScratchBackendConvertor
