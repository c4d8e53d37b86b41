import MarvellBoot.Atf.Auth.Lemmas.KeysApart
import MarvellBoot.Atf.Auth.Lemmas.NvCtr
import MarvellBoot.Atf.BlCommon.Success
import MarvellBoot.Atf.Fip
import MarvellBoot.Atf.IoBlock.Lemmas.Read
import MarvellBoot.Atf.IoBlock.Lemmas.Write
import MarvellBoot.Atf.Psci.Coordination
import MarvellBoot.Atf.Psci.Lemmas.CpuOn
import MarvellBoot.Atf.Psci.Lemmas.Setup
import MarvellBoot.UBoot.BlkCache.Lemmas
import MarvellBoot.UBoot.Bootp.Ids
import MarvellBoot.UBoot.Bootp.Lemmas.Handshake
import MarvellBoot.UBoot.Bubt.Access
import MarvellBoot.UBoot.Defrag.Lemmas.Reassembly
import MarvellBoot.UBoot.Defrag.Lemmas.Safety
import MarvellBoot.UBoot.Device.Lemmas
import MarvellBoot.UBoot.Dfu.Write
import MarvellBoot.UBoot.Dns.Handler
import MarvellBoot.UBoot.EnvAttr.Regex
import MarvellBoot.UBoot.EnvFlags.Lemmas.Run
import MarvellBoot.UBoot.EnvMmc.Lemmas
import MarvellBoot.UBoot.EnvSf.Lemmas
import MarvellBoot.UBoot.Fat.Lemmas.LongName
import MarvellBoot.UBoot.Fat.Lemmas.Search
import MarvellBoot.UBoot.FwEnv.Lemmas.Update
import MarvellBoot.UBoot.Hashtable.Lemmas.Crlf
import MarvellBoot.UBoot.Hashtable.Lemmas.Match
import MarvellBoot.UBoot.Image.Lemmas.RequiredKeys
import MarvellBoot.UBoot.Lmb.Lemmas.Apart
import MarvellBoot.UBoot.MemSize
import MarvellBoot.UBoot.Membuff.Fifo
import MarvellBoot.UBoot.Nand.Erase
import MarvellBoot.UBoot.Nfs.Lemmas
import MarvellBoot.UBoot.PartDos.Lemmas.Agree
import MarvellBoot.UBoot.PartEfi.Lemmas.Access
import MarvellBoot.UBoot.PartEfi.Lemmas.Layout
import MarvellBoot.UBoot.Pci.Lemmas.Setup
import MarvellBoot.UBoot.Readline.History
import MarvellBoot.UBoot.Rsa.Lemmas.VerifyKey
import MarvellBoot.UBoot.Sag100.CheckIp
import MarvellBoot.UBoot.Sag100.Lemmas
import MarvellBoot.UBoot.SpiFlash.Lemmas
import MarvellBoot.UBoot.SpiFlash.Lock
import MarvellBoot.UBoot.Tftp.Lemmas.Put
